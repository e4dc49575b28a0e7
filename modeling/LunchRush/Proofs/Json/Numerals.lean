import LunchRush.Json.Printer
import LunchRush.Json.Reader
import LunchRush.Proofs.Number.Text
/-!
# Numerals in JSON text

The characters of a numeral are read back as its parts, whatever follows that cannot belong to it
(`numeral?_chars`). As long as its digits fit 64 bits, all of them count (`leading_of_fits`).
-/

namespace LunchRush.Json

open LunchRush.Number
open LunchRush.Text (Stops)

/-! ## The parts of a numeral -/

/-- The point and the digits after it, if there are any. -/
def Numeral.fractionChars (n : Numeral) : List Char :=
  match n.fraction with
  | some digits => '.' :: digits
  | none => []

/-- The exponent with its sign, if there is one. -/
def Numeral.exponentChars (n : Numeral) : List Char :=
  match n.exponent with
  | some e => 'e' :: (if e < 0 then ['-'] else ['+']) ++ decimalDigits e.natAbs
  | none => []

/-- The characters of a numeral. -/
def Numeral.chars (n : Numeral) : List Char :=
  (if n.negative then ['-'] else []) ++ (n.whole ++ (n.fractionChars ++ n.exponentChars))

/-- A numeral as JSON has them: no zero comes before other digits, and a point has digits on either
side. -/
structure Numeral.Proper (n : Numeral) : Prop where
  whole : Digits n.whole
  some_digit : n.whole ≠ []
  leading : n.whole = ['0'] ∨ n.whole.head? ≠ some '0'
  fraction : ∀ digits, n.fraction = some digits → Digits digits ∧ digits ≠ []

/-- What cannot belong to a number. -/
abbrev Ends (rest : List Char) : Prop := Stops isNumeral rest

theorem Ends.isDigit {rest : List Char} (h : Ends rest) : Stops Char.isDigit rest := by
  intro c hc
  have := h c hc
  simp [isNumeral, Char.isAlphanum] at this
  exact this.1.1.2

theorem Ends.head?_ne {rest : List Char} (h : Ends rest) {c : Char} (hc : isNumeral c = true) :
    rest.head? ≠ some c := by
  intro hr
  rw [h c hr] at hc
  cases hc

theorem wholePart?_append {digits rest : List Char} (hd : Digits digits) (hne : digits ≠ [])
    (hl : digits = ['0'] ∨ digits.head? ≠ some '0') (hr : Stops Char.isDigit rest) :
    Tree.wholePart? (digits ++ rest) = some (digits, rest) := by
  unfold Tree.wholePart?
  rw [takeDigits_append hd hr]
  rcases hl with rfl | hl
  · rfl
  · rcases digits with _ | ⟨first, _ | ⟨second, digits⟩⟩
    · exact absurd rfl hne
    · split <;> simp_all
    · split <;> simp_all

theorem fractionPart?_chars {n : Numeral} (h : n.Proper) {rest : List Char}
    (hr : Stops Char.isDigit rest) (hp : rest.head? ≠ some '.') :
    Tree.fractionPart? (n.fractionChars ++ rest) = some (n.fraction, rest) := by
  have hf := h.fraction
  unfold Numeral.fractionChars
  cases hfrac : n.fraction with
  | none =>
    unfold Tree.fractionPart?
    split
    · rename_i he
      exact absurd (congrArg List.head? he) hp
    · rfl
  | some digits =>
    obtain ⟨hd, hne⟩ := hf digits hfrac
    simp only [Tree.fractionPart?, List.cons_append, takeDigits_append hd hr]

theorem takeExponent?_chars (n : Numeral) {rest : List Char} (hr : Ends rest) :
    takeExponent? (n.exponentChars ++ rest) = some (n.exponent.getD 0, rest) := by
  unfold Numeral.exponentChars
  cases n.exponent with
  | none =>
    unfold takeExponent?
    rw [List.nil_append]
    split
    · exact absurd rfl (hr.head?_ne (c := 'e') rfl)
    · exact absurd rfl (hr.head?_ne (c := 'E') rfl)
    · rfl
  | some e =>
    have h := takeExponent?_text e true hr.isDigit
    simpa using h

/-- Whether an exponent is written is seen from the first character. -/
theorem marked_chars (n : Numeral) {rest : List Char} (hr : Ends rest) :
    (match n.exponentChars ++ rest with
      | 'e' :: _ | 'E' :: _ => true
      | _ => false) = n.exponent.isSome := by
  unfold Numeral.exponentChars
  cases n.exponent with
  | none =>
    rw [List.nil_append]
    split
    · exact absurd rfl (hr.head?_ne (c := 'e') rfl)
    · exact absurd rfl (hr.head?_ne (c := 'E') rfl)
    · rfl
  | some e => rfl

/-- What follows the digits before the point is no digit. -/
theorem stops_exponent (n : Numeral) {rest : List Char} (hr : Ends rest) :
    Stops Char.isDigit (n.exponentChars ++ rest) ∧ (n.exponentChars ++ rest).head? ≠ some '.' := by
  unfold Numeral.exponentChars
  cases n.exponent with
  | none => exact ⟨hr.isDigit, hr.head?_ne rfl⟩
  | some e => exact ⟨.cons _ rfl, by simp⟩

theorem stops_fraction (n : Numeral) {rest : List Char} (hr : Stops Char.isDigit rest) :
    Stops Char.isDigit (n.fractionChars ++ rest) := by
  unfold Numeral.fractionChars
  cases n.fraction with
  | none => exact hr
  | some digits => exact .cons _ rfl

theorem Numeral.chars_cons {n : Numeral} (h : n.Proper) (rest : List Char) :
    ∃ c cs, n.chars ++ rest = c :: cs ∧ (c = '-' ∨ c.isDigit = true) := by
  unfold chars
  cases n.negative with
  | true => exact ⟨'-', _, rfl, .inl rfl⟩
  | false =>
    obtain ⟨c, digits, hw⟩ := List.exists_cons_of_ne_nil h.some_digit
    rw [hw]
    exact ⟨c, _, rfl, .inr (h.whole c (hw ▸ List.mem_cons_self))⟩

/-- A numeral is read back from its parts, its exponent being written in any way. -/
theorem numeral?_parts {n : Numeral} (h : n.Proper) {exponent rest : List Char}
    (hexponent : takeExponent? (exponent ++ rest) = some (n.exponent.getD 0, rest))
    (hmarked : (match exponent ++ rest with
      | 'e' :: _ | 'E' :: _ => true
      | _ => false) = n.exponent.isSome)
    (hstops : Stops Char.isDigit (exponent ++ rest)) (hpoint : (exponent ++ rest).head? ≠ some '.') :
    Tree.numeral? ((if n.negative then ['-'] else []) ++ (n.whole ++ (n.fractionChars ++ (exponent ++ rest)))) =
      some (n, rest) := by
  have hwhole := wholePart?_append h.whole h.some_digit h.leading (stops_fraction n hstops)
  have hfraction := fractionPart?_chars h hstops hpoint
  obtain ⟨negative, whole, fraction, exp⟩ := n
  have hresult : ∀ marked : Bool, marked = exp.isSome →
      some ((⟨negative, whole, fraction, if marked then some (exp.getD 0) else none⟩ : Numeral), rest) =
        some (⟨negative, whole, fraction, exp⟩, rest) := by
    rintro _ rfl
    cases exp <;> rfl
  unfold Tree.numeral?
  cases negative with
  | true =>
    simp only [if_true, List.cons_append, List.nil_append, hwhole, hfraction, hexponent,
      Option.bind_eq_bind, Option.bind_some]
    exact hresult _ hmarked
  | false =>
    simp only [Bool.false_eq_true, if_false, List.nil_append]
    split
    · rename_i hminus
      rw [hminus] at hwhole
      cases hwhole
    · simp only [hwhole, hfraction, hexponent, Option.bind_eq_bind, Option.bind_some]
      exact hresult _ hmarked

/-- A numeral is read back from its characters. -/
theorem numeral?_chars {n : Numeral} (h : n.Proper) {rest : List Char} (hr : Ends rest) :
    Tree.numeral? (n.chars ++ rest) = some (n, rest) := by
  obtain ⟨hexp, hpoint⟩ := stops_exponent n hr
  have hparts := numeral?_parts h (takeExponent?_chars n hr) (marked_chars n hr) hexp hpoint
  simpa [Numeral.chars] using hparts

/-! ## The digits of a numeral -/

/-- The digits of a numeral without the point. -/
def Numeral.significand (n : Numeral) : Nat := ofDigits (n.whole ++ n.fraction.getD [])

/-- The power of ten in whose place the last digit stands. -/
def Numeral.scale (n : Numeral) : Int := n.exponent.getD 0 - (n.fraction.getD []).length

theorem le_ofDigitChars (cs : List Char) (n : Nat) : n ≤ Nat.ofDigitChars 10 cs n := by
  rw [Nat.ofDigitChars_eq_ofDigitChars_zero]
  exact (Nat.le_mul_of_pos_left n (by positivity)).trans (Nat.le_add_right _ _)

/-- Digits that make a number of 64 bits fit one after the other. -/
theorem fits_cons {c : Char} {cs : List Char} {n : Nat} (h : Nat.ofDigitChars 10 (c :: cs) n < 2 ^ 64) :
    Leading.fits n (digitValue c) = true ∧
      Nat.ofDigitChars 10 (c :: cs) n = Nat.ofDigitChars 10 cs (10 * n + digitValue c) := by
  refine ⟨decide_eq_true (lt_of_le_of_lt ?_ h), Nat.ofDigitChars_cons⟩
  rw [Nat.ofDigitChars_cons]
  exact le_ofDigitChars cs _

theorem whole_of_fits (cs : List Char) {n : Nat} (h : Nat.ofDigitChars 10 cs n < 2 ^ 64) :
    Leading.whole n cs = ⟨Nat.ofDigitChars 10 cs n, 0⟩ := by
  induction cs generalizing n with
  | nil => rfl
  | cons c cs ih =>
    obtain ⟨hfits, hcons⟩ := fits_cons h
    rw [hcons] at h ⊢
    simp only [Leading.whole, hfits, if_true]
    exact ih h

theorem fraction_of_fits (cs : List Char) {n : Nat} (e : Int) (h : Nat.ofDigitChars 10 cs n < 2 ^ 64) :
    Leading.fraction ⟨n, e⟩ cs = ⟨Nat.ofDigitChars 10 cs n, e - cs.length⟩ := by
  induction cs generalizing n e with
  | nil => simp [Leading.fraction]
  | cons c cs ih =>
    obtain ⟨hfits, hcons⟩ := fits_cons h
    rw [hcons] at h ⊢
    simp only [Leading.fraction, hfits, if_true]
    rw [ih (e - 1) h, List.length_cons]
    congr 1
    push_cast
    omega

/-- All digits count where they fit 64 bits. -/
theorem leading_of_fits {n : Numeral} (h : n.significand < 2 ^ 64) :
    (Leading.whole 0 n.whole).fraction (n.fraction.getD []) =
      ⟨n.significand, -(n.fraction.getD []).length⟩ := by
  unfold Numeral.significand at h ⊢
  rw [ofDigits_eq, Nat.ofDigitChars_append] at h ⊢
  rw [whole_of_fits n.whole ((le_ofDigitChars _ _).trans_lt h), fraction_of_fits _ 0 h, Int.zero_sub]

end LunchRush.Json
