import LunchRush.Number.Layout
import LunchRush.Proofs.Number.Shortest
import LunchRush.Proofs.Text.Span
import LunchRush.Yaml.Schema
/-!
# Floats read back from their text

The digits of a decimal are read back as a decimal of the same value, however they are set
(`readsAs_digits`). As the shortest digits of a float lie near it, the text of a float is read
back as the float: `floatOfPlain?_show` says so for the text in documents, for every float.
-/

namespace LunchRush.Number

open LunchRush.Text (Stops span_append)

/-! ## Digits -/

theorem ofDigits_eq (cs : List Char) : ofDigits cs = Nat.ofDigitChars 10 cs 0 := rfl

theorem ofDigits_append (xs ys : List Char) :
    ofDigits (xs ++ ys) = ofDigits xs * 10 ^ ys.length + ofDigits ys := by
  rw [ofDigits_eq, Nat.ofDigitChars_append, Nat.ofDigitChars_eq_ofDigitChars_zero, Nat.mul_comm]
  rfl

theorem ofDigits_zeros (n : Nat) : ofDigits (List.replicate n '0') = 0 := by
  rw [ofDigits_eq, Nat.ofDigitChars_replicate_zero, Nat.mul_zero]

theorem ofDigits_decimalDigits (n : Nat) : ofDigits (decimalDigits n) = n :=
  Nat.ofDigitChars_ten_toDigits

/-- A row of digits. -/
def Digits (cs : List Char) : Prop := ∀ c ∈ cs, c.isDigit = true

theorem decimalDigits_digits (n : Nat) : Digits (decimalDigits n) :=
  fun _ hc => Nat.isDigit_of_mem_toDigits (by decide) (by decide) hc

theorem zeros_digits (n : Nat) : Digits (List.replicate n '0') := by
  intro c hc
  rw [List.eq_of_mem_replicate hc]
  rfl

theorem decimalDigits_ne_nil (n : Nat) : decimalDigits n ≠ [] := Nat.toDigits_ne_nil

theorem takeDigits_append {digits rest : List Char} (hd : Digits digits) (hr : Stops Char.isDigit rest) :
    takeDigits (digits ++ rest) = (digits, rest) := span_append hd hr

/-- No digit is a sign. -/
theorem takeSign_digits {digits : List Char} (rest : List Char) (hd : Digits digits) (hne : digits ≠ []) :
    takeSign (digits ++ rest) = (false, digits ++ rest) := by
  cases digits with
  | nil => exact absurd rfl hne
  | cons c digits =>
    have hc := hd c List.mem_cons_self
    unfold takeSign
    split
    · rename_i h
      cases h
      simp at hc
    · rename_i h
      cases h
      simp at hc
    · rfl

/-! ## Decimals -/

theorem takeExponent?_nil : takeExponent? [] = some (0, []) := rfl

/-- The text of an exponent is read back. -/
theorem takeExponent?_text (e : Int) (plus : Bool) {rest : List Char} (hr : Stops Char.isDigit rest) :
    takeExponent? ('e' :: (if e < 0 then ['-'] else if plus then ['+'] else []) ++
      (decimalDigits e.natAbs ++ rest)) = some (e, rest) := by
  have htake := takeDigits_append (decimalDigits_digits e.natAbs) hr
  have hsign := takeSign_digits rest (decimalDigits_digits e.natAbs) (decimalDigits_ne_nil _)
  have hne : (decimalDigits e.natAbs).isEmpty = false := by simpa using decimalDigits_ne_nil _
  simp only [takeExponent?, List.cons_append]
  split
  · simp only [List.cons_append, List.nil_append, takeSign, htake, hne, ofDigits_decimalDigits,
      Bool.false_eq_true, if_false, if_true]
    rw [show -(e.natAbs : Int) = e by omega]
  · split
    · simp only [List.cons_append, List.nil_append, takeSign, htake, hne, ofDigits_decimalDigits,
        Bool.false_eq_true, if_false]
      rw [show (e.natAbs : Int) = e by omega]
    · simp only [List.nil_append, hsign, htake, hne, ofDigits_decimalDigits,
        Bool.false_eq_true, if_false]
      rw [show (e.natAbs : Int) = e by omega]

theorem takeMantissa?_point {whole fraction rest : List Char} (hw : Digits whole) (hne : whole ≠ [])
    (hf : Digits fraction) (hr : Stops Char.isDigit rest) :
    takeMantissa? (whole ++ '.' :: (fraction ++ rest)) = some (whole, fraction, rest) := by
  unfold takeMantissa?
  rw [takeDigits_append hw (.cons _ (by decide))]
  dsimp only
  split
  · rename_i h
    cases h
    rw [takeDigits_append hf hr]
    cases whole with
    | nil => exact absurd rfl hne
    | cons c whole => rfl
  · rename_i h
    exact absurd rfl (h _)

theorem takeMantissa?_whole {whole rest : List Char} (hw : Digits whole) (hne : whole ≠ [])
    (hr : Stops Char.isDigit rest) (hp : rest.head? ≠ some '.') :
    takeMantissa? (whole ++ rest) = some (whole, [], rest) := by
  unfold takeMantissa?
  rw [takeDigits_append hw hr]
  dsimp only
  split
  · simp at hp
  · cases whole with
    | nil => exact absurd rfl hne
    | cons c whole => rfl

/-- Digits around a point, and then an exponent or nothing. -/
theorem ofUnsigned?_point (negative : Bool) {whole fraction rest : List Char} {e : Int}
    (hw : Digits whole) (hne : whole ≠ []) (hf : Digits fraction) (hr : Stops Char.isDigit rest)
    (he : takeExponent? rest = some (e, [])) :
    Decimal.ofUnsigned? negative (whole ++ '.' :: (fraction ++ rest)) =
      some ⟨negative, ofDigits (whole ++ fraction), e - fraction.length⟩ := by
  unfold Decimal.ofUnsigned?
  rw [takeMantissa?_point hw hne hf hr]
  simp [he]

/-- Digits without a point, and then an exponent or nothing. -/
theorem ofUnsigned?_whole (negative : Bool) {whole rest : List Char} {e : Int}
    (hw : Digits whole) (hne : whole ≠ []) (hr : Stops Char.isDigit rest)
    (hp : rest.head? ≠ some '.') (he : takeExponent? rest = some (e, [])) :
    Decimal.ofUnsigned? negative (whole ++ rest) = some ⟨negative, ofDigits whole, e⟩ := by
  unfold Decimal.ofUnsigned?
  rw [takeMantissa?_whole hw hne hr hp]
  simp [he]

/-! ## How digits are set -/

/-- Text that is read as a decimal of a value, under either sign. -/
def ReadsAs (cs : List Char) (v : ℚ) : Prop :=
  ∃ (coefficient : Nat) (exponent : Int), (coefficient * 10 ^ exponent : ℚ) = v ∧
    ∀ negative, Decimal.ofUnsigned? negative cs = some ⟨negative, coefficient, exponent⟩

theorem Digits.append {xs ys : List Char} (hx : Digits xs) (hy : Digits ys) : Digits (xs ++ ys) := by
  intro c hc
  rcases List.mem_append.1 hc with hc | hc
  · exact hx c hc
  · exact hy c hc

theorem ofDigits_zero_append (n : Nat) (digits : List Char) :
    ofDigits ('0' :: (List.replicate n '0' ++ digits)) = ofDigits digits := by
  rw [← List.cons_append, ← List.replicate_succ, ofDigits_append, ofDigits_zeros, Nat.zero_mul, Nat.zero_add]

theorem ofDigits_append_zeros (digits : List Char) (n : Nat) :
    ofDigits (digits ++ List.replicate n '0') = ofDigits digits * 10 ^ n := by
  rw [ofDigits_append, ofDigits_zeros, List.length_replicate, Nat.add_zero]

/-- The digits of a decimal around a point, the last of them in the place of `10 ^ e`, with zeros added
behind them. -/
structure Pointed (digits : List Char) (e : Int) (added : Nat) (whole fraction : List Char) : Prop where
  whole_digits : Digits whole
  some_digit : whole ≠ []
  leading : whole = ['0'] ∨ whole.head? = digits.head?
  fraction_digits : Digits fraction
  value : ofDigits (whole ++ fraction) = ofDigits digits * 10 ^ added
  places : (fraction.length : Int) = added - e

/-- Zeros are added up to the point, and one behind it where the layout asks for that. -/
theorem positional_pointed (l : Layout) {digits : List Char} (hd : Digits digits) (hne : digits ≠ [])
    (e : Int) : ∃ added whole fraction, Pointed digits e added whole fraction ∧
      l.positional digits (digits.length + e) = whole ++ (if fraction = [] then [] else '.' :: fraction) ∧
      (l.point = true → fraction ≠ []) ∧ (added = 0 ∨ (added : Int) ≤ e + 1) := by
  have hlen : 0 < digits.length := List.length_pos_iff.2 hne
  unfold Layout.positional
  split
  · -- zeros stand between the point and the digits
    refine ⟨0, ['0'], List.replicate (-(digits.length + e)).toNat '0' ++ digits,
      ⟨by simp [Digits], by simp, .inl rfl, (zeros_digits _).append hd, ?_, ?_⟩, by simp [hne], by simp [hne],
      .inl rfl⟩
    · rw [List.singleton_append, ofDigits_zero_append, Nat.pow_zero, Nat.mul_one]
    · rw [List.length_append, List.length_replicate]
      omega
  · split
    · -- zeros stand between the digits and the point
      obtain ⟨n, rfl⟩ := Int.eq_ofNat_of_zero_le (show 0 ≤ e by omega)
      rw [show ((digits.length : Int) + n).toNat - digits.length = n by omega]
      cases l.point with
      | false =>
        refine ⟨n, digits ++ List.replicate n '0', [], ⟨hd.append (zeros_digits n), by simp [hne], .inr ?_, nofun,
          ?_, by simp⟩, by simp, nofun, .inr (by omega)⟩
        · rw [List.head?_append_of_ne_nil _ hne]
        · rw [List.append_nil, ofDigits_append_zeros]
      | true =>
        refine ⟨n + 1, digits ++ List.replicate n '0', ['0'], ⟨hd.append (zeros_digits n), by simp [hne],
          .inr ?_, by simp [Digits], ?_, by simp⟩, by simp, by simp, .inr (by simp)⟩
        · rw [List.head?_append_of_ne_nil _ hne]
        · rw [List.append_assoc, ← List.replicate_succ', ofDigits_append_zeros]
    · -- the point stands among the digits
      generalize hn : ((digits.length : Int) + e).toNat = n
      have hdrop : digits.drop n ≠ [] := by
        simp
        omega
      refine ⟨0, digits.take n, digits.drop n, ⟨fun c hc => hd c (List.mem_of_mem_take hc), ?_, .inr ?_,
        fun c hc => hd c (List.mem_of_mem_drop hc), ?_, ?_⟩, by rw [if_neg hdrop], fun _ => hdrop, .inl rfl⟩
      · simp [hne]
        omega
      · rw [List.head?_take, if_neg (by omega)]
      · rw [List.take_append_drop, Nat.pow_zero, Nat.mul_one]
      · rw [List.length_drop]
        omega

/-- Digits around a point, the last of them in the place of `10 ^ e`. -/
theorem readsAs_positional (l : Layout) {digits : List Char} (hd : Digits digits) (hne : digits ≠ [])
    (e : Int) : ReadsAs (l.positional digits (digits.length + e)) (ofDigits digits * 10 ^ e) := by
  obtain ⟨added, whole, fraction, h, hchars, -, -⟩ := positional_pointed l hd hne e
  refine ⟨ofDigits (whole ++ fraction), -fraction.length, ?_, fun negative => ?_⟩
  · rw [h.value, h.places]
    push_cast
    rw [← zpow_natCast, mul_assoc, ← zpow_add₀ (by norm_num)]
    congr 2
    omega
  · rw [hchars]
    by_cases hf : fraction = []
    · subst hf
      simpa using ofUnsigned?_whole negative h.whole_digits h.some_digit (.nil _) (by simp) takeExponent?_nil
    · rw [if_neg hf]
      simpa using ofUnsigned?_point negative h.whole_digits h.some_digit h.fraction_digits (.nil _) takeExponent?_nil

/-- One digit before the point, and the exponent that puts the last one in the place of `10 ^ e`. -/
theorem readsAs_scientific (l : Layout) {digits : List Char} (hd : Digits digits) (hne : digits ≠ [])
    (e : Int) : ReadsAs (l.scientific digits (digits.length - 1 + e)) (ofDigits digits * 10 ^ e) := by
  refine ⟨ofDigits digits, e, rfl, fun negative => ?_⟩
  unfold Layout.scientific
  have hexp := takeExponent?_text (digits.length - 1 + e) l.plus (.nil _)
  rw [List.append_nil] at hexp
  match digits, hne with
  | [first], _ =>
    have hread : Decimal.ofUnsigned? negative ([first] ++ _) = _ :=
      ofUnsigned?_whole negative hd (by simp) (.cons _ (by decide)) (by simp) hexp
    simpa using hread
  | first :: second :: more, _ =>
    have hread : Decimal.ofUnsigned? negative ([first] ++ '.' :: ((second :: more) ++ _)) = _ :=
      ofUnsigned?_point negative (fun c hc => hd c (by simp_all)) (by simp)
        (fun c hc => hd c (by simp_all)) (.cons _ (by decide)) hexp
    simpa using hread

/-- The digits of a decimal are read as the decimal. -/
theorem readsAs_digits (l : Layout) {c : Nat} (hc : 0 < c) (e : Int) :
    ReadsAs (l.digits c e) (c * 10 ^ e) := by
  have hd := decimalDigits_digits c
  have hne := decimalDigits_ne_nil c
  have hpos := readsAs_positional l hd hne e
  have hsci := readsAs_scientific l hd hne e
  rw [ofDigits_decimalDigits] at hpos hsci
  unfold Layout.digits
  rw [if_neg (Nat.ne_of_gt hc)]
  dsimp only
  split
  · rwa [show ((decimalDigits c).length : Int) - 1 + e + 1 = (decimalDigits c).length + e by omega]
  · exact hsci

/-! ## From decimals to floats -/

section

variable {b : Binary} {c : Nat} {e : Int} (h : b.Near (c * 10 ^ e)) (hc : b.Canonical)
include h hc

/-- A decimal above the largest float is near none. -/
theorem exponent_le_of_near (hcpos : 0 < c) : e ≤ 400 := by
  by_contra hbig
  have hcpos' : (1 : ℚ) ≤ c := by exact_mod_cast hcpos
  have hten : (0 : ℚ) < 10 ^ e := by positivity
  have hlt : (c * 10 ^ e : ℚ) < 2 ^ (1024 : Int) :=
    (h.lt hc).trans_le (zpow_le_zpow_right₀ (by norm_num) (by have := hc.high; omega))
  have hge : (2 : ℚ) ^ (1024 : Int) ≤ c * 10 ^ e := by
    calc (2 : ℚ) ^ (1024 : Int) ≤ 2 ^ (3 * e) := zpow_le_zpow_right₀ (by norm_num) (by omega)
      _ = (2 ^ (3 : Int)) ^ e := zpow_mul _ _ _
      _ ≤ 10 ^ e := zpow_le_zpow_left₀ (by omega) (by norm_num) (by norm_num)
      _ ≤ c * 10 ^ e := le_mul_of_one_le_left hten.le hcpos'
  exact absurd hge (not_le.2 hlt)

/-- What is near a float that is not zero is no less than half of the smallest float. -/
theorem half_least_le_of_near (hm : 0 < b.mantissa) : (2 : ℚ) ^ (-1075 : Int) ≤ c * 10 ^ e := by
  refine le_trans ?_ h.low
  have hb : (b.quartersBelow : ℚ) ≤ 2 := by exact_mod_cast b.quartersBelow_le
  have hm' : (1 : ℚ) ≤ b.mantissa := by exact_mod_cast hm
  have hq : (2 : ℚ) ^ (-1076 : Int) ≤ 2 ^ (b.exponent - 2) :=
    zpow_le_zpow_right₀ (by norm_num) (by have := hc.low; omega)
  rw [show (-1075 : Int) = -1076 + 1 by norm_num, zpow_add_one₀ (by norm_num)]
  have hp : (0 : ℚ) < 2 ^ (-1076 : Int) := by positivity
  generalize (2 : ℚ) ^ (-1076 : Int) = p at *
  nlinarith

/-- A decimal far below the smallest float is near zero only. -/
theorem le_log2_of_near (hm : 0 < b.mantissa) (hcpos : 0 < c) (he : e ≤ 400) :
    -1080 ≤ (c.log2 : Int) + 1 + 3 * e := by
  by_contra hsmall
  have hlog := (log2_bounds hcpos).2
  have height : (10 : ℚ) ^ e ≤ 2 ^ (3 * e) := ten_zpow_le (by omega) (by omega)
  have hhigh : (c * 10 ^ e : ℚ) < 2 ^ (-1075 : Int) := by
    calc (c * 10 ^ e : ℚ) < 2 ^ ((c.log2 : Int) + 1) * 10 ^ e := by gcongr
      _ ≤ 2 ^ ((c.log2 : Int) + 1) * 2 ^ (3 * e) := by gcongr
      _ = 2 ^ ((c.log2 : Int) + 1 + 3 * e) := by rw [← zpow_add₀ (by norm_num)]
      _ ≤ 2 ^ (-1075 : Int) := zpow_le_zpow_right₀ (by norm_num) (by omega)
  exact absurd (half_least_le_of_near h hc hm) (not_le.2 hhigh)

end

/-- A decimal near a float is turned into that float: the cases that are told apart by size alone
lie far away from all floats that are not zero. -/
theorem toFloat_eq {b : Binary} (hc : b.Canonical) (hm : 0 < b.mantissa) {d : Decimal}
    (h : b.Near (d.coefficient * 10 ^ d.exponent)) : d.toFloat = ofSteps d.negative b.steps := by
  obtain ⟨negative, c, e⟩ := d
  change b.Near (c * 10 ^ e) at h
  change Decimal.toFloat ⟨negative, c, e⟩ = ofSteps negative b.steps
  have hcpos : 0 < c := by
    have hpos := h.pos hm
    rcases Nat.eq_zero_or_pos c with rfl | hcpos
    · simp at hpos
    · exact hcpos
  have hbig := exponent_le_of_near h hc hcpos
  have hsmall := le_log2_of_near h hc hm hcpos hbig
  unfold Decimal.toFloat
  dsimp only
  rw [if_neg (Nat.ne_of_gt hcpos), if_neg (by omega), if_neg (by omega)]
  split
  · rename_i h0
    obtain ⟨n, rfl⟩ := Int.eq_ofNat_of_zero_le h0
    exact nearest_eq hc hm Nat.one_pos (by simpa [Nat.pow_eq] using h) negative
  · rename_i h0
    obtain ⟨n, hn⟩ := Int.eq_ofNat_of_zero_le (show 0 ≤ -e by omega)
    rw [show e = -(n : Int) by omega] at h ⊢
    refine nearest_eq hc hm (by simp [Nat.pow_eq]) ?_ negative
    simpa [Nat.pow_eq, div_eq_mul_inv] using h

theorem takeSign_of_readsAs {cs : List Char} {v : ℚ} (h : ReadsAs cs v) : takeSign cs = (false, cs) := by
  obtain ⟨c, e, -, h⟩ := h
  have h := h false
  unfold takeSign
  split
  · simp [Decimal.ofUnsigned?, takeMantissa?, takeDigits, List.span_eq_takeWhile_dropWhile] at h
  · simp [Decimal.ofUnsigned?, takeMantissa?, takeDigits, List.span_eq_takeWhile_dropWhile] at h
  · rfl

/-- The text of a finite number is read as a decimal that is turned into its float. -/
theorem ofChars?_finite (l : Layout) {b : Binary} (hc : b.Canonical) :
    ∃ d, Decimal.ofChars? (l.finite b) = some d ∧ d.toFloat = ofSteps b.negative b.steps := by
  unfold Layout.finite
  have key : ∀ {cs : List Char} {v : ℚ}, ReadsAs cs v →
      (∀ d : Decimal, d.negative = b.negative → (d.coefficient * 10 ^ d.exponent : ℚ) = v →
        d.toFloat = ofSteps b.negative b.steps) →
      ∃ d, Decimal.ofChars? ((if b.negative then ['-'] else []) ++ cs) = some d ∧
        d.toFloat = ofSteps b.negative b.steps := by
    intro cs v hr hd
    have hsign := takeSign_of_readsAs hr
    obtain ⟨c, e, hv, hread⟩ := hr
    refine ⟨⟨b.negative, c, e⟩, ?_, hd _ rfl hv⟩
    unfold Decimal.ofChars?
    cases hn : b.negative with
    | false => simpa [hsign] using hread false
    | true => simpa [takeSign] using hread true
  by_cases hm : b.mantissa = 0
  · rw [if_pos hm]
    have hzero : ReadsAs (l.digits 0 0) 0 := by
      unfold Layout.digits
      refine ⟨0, ?_⟩
      cases l.point with
      | false => exact ⟨0, by simp, fun _ => rfl⟩
      | true => exact ⟨-1, by simp, fun _ => rfl⟩
    refine key hzero fun d hn hd => ?_
    have hc0 : d.coefficient = 0 := by
      exact_mod_cast (mul_eq_zero.1 hd).resolve_right (by positivity)
    have hs : b.steps = 0 := by
      have := hc.full
      unfold Binary.steps
      omega
    unfold Decimal.toFloat
    rw [if_pos hc0, hn, hs]
  · rw [if_neg hm]
    have hmpos := Nat.pos_of_ne_zero hm
    obtain ⟨hpos, hnear⟩ := shortest_near hc hmpos l.tie
    refine key (readsAs_digits l hpos _) fun d hn hd => ?_
    rw [← hn]
    exact toFloat_eq hc hmpos (hd ▸ hnear)

/-! ## The text in documents -/

/-- No word for an infinity or for what is no number is a decimal. -/
theorem floatOfPlain?_of_decimal {s : String} {d : Decimal} (h : Decimal.ofChars? s.toList = some d) :
    Yaml.floatOfPlain? s = (some d.toFloat).filter Float.isFinite := by
  have hword : ∀ words : List String, (∀ w ∈ words, Decimal.ofChars? w.toList = none) →
      ¬ words.contains s = true := by
    intro words hwords hs
    have := hwords s (List.contains_iff_mem.1 hs)
    rw [h] at this
    cases this
  unfold Yaml.floatOfPlain?
  rw [if_neg (hword _ (by decide)), if_neg (hword _ (by decide)), if_neg (hword _ (by decide)), h]

/-- The text of a float is read as the float, whatever float it is. -/
theorem floatOfPlain?_show (x : Float) : Yaml.floatOfPlain? (Layout.yaml.show x) = some x := by
  unfold Layout.show
  split
  · rename_i b hb
    obtain ⟨hc, hx, hf⟩ := ofFloat?_spec hb
    obtain ⟨d, hd, hfloat⟩ := ofChars?_finite Layout.yaml hc
    rw [floatOfPlain?_of_decimal (by rw [String.toList_ofList]; exact hd), hfloat, ← hx]
    simp [hf]
  · rename_i hb
    have hf := (ofFloat?_eq_none_iff x).1 hb
    cases hn : x.isNaN with
    | true => rw [eq_nan hn]; rfl
    | false =>
      have hx := eq_infinity hf hn
      cases hs : isNegative x with
      | true => rw [hs] at hx; rw [hx]; rfl
      | false => rw [hs] at hx; rw [hx]; rfl

/-! ## The characters of numbers -/

/-- The characters of numbers: digits, letters, the point and the sign. -/
def isNumeral (c : Char) : Bool := c.isAlphanum || c == '.' || c == '-'

/-- A text of such characters. -/
def Numerals (cs : List Char) : Prop := ∀ c ∈ cs, isNumeral c = true

theorem Numerals.append {xs ys : List Char} (hx : Numerals xs) (hy : Numerals ys) : Numerals (xs ++ ys) :=
  List.forall_mem_append.2 ⟨hx, hy⟩

theorem Numerals.cons {c : Char} {cs : List Char} (hc : isNumeral c = true) (h : Numerals cs) :
    Numerals (c :: cs) := List.forall_mem_cons.2 ⟨hc, h⟩

theorem Digits.numerals {cs : List Char} (h : Digits cs) : Numerals cs := by
  intro c hc
  simp [isNumeral, Char.isAlphanum, h c hc]

theorem sign_numerals (negative : Bool) : Numerals (if negative then ['-'] else []) := by
  cases negative
  · exact nofun
  · exact .cons rfl nofun

theorem positional_numerals {digits : List Char} (hd : Numerals digits) (point : Int) :
    Numerals (Layout.yaml.positional digits point) := by
  have hz := fun n => (zeros_digits n).numerals
  unfold Layout.positional
  split
  · exact .cons rfl (.cons rfl ((hz _).append hd))
  · split
    · exact (hd.append (hz _)).append (List.all_eq_true.1 (show ['.', '0'].all isNumeral = true from rfl))
    · refine Numerals.append (fun c hc => hd c (List.mem_of_mem_take hc)) (.cons rfl fun c hc => ?_)
      exact hd c (List.mem_of_mem_drop hc)

theorem scientific_numerals {digits : List Char} (hd : Numerals digits) (exponent : Int) :
    Numerals (Layout.yaml.scientific digits exponent) := by
  have hexp := (decimalDigits_digits exponent.natAbs).numerals
  unfold Layout.scientific
  refine Numerals.append (.append ?_ (.cons rfl ?_)) hexp
  · rcases digits with _ | ⟨first, _ | ⟨second, more⟩⟩
    · exact hd
    · exact hd
    · obtain ⟨hfirst, hmore⟩ := List.forall_mem_cons.1 hd
      exact .cons hfirst (.cons rfl hmore)
  · split
    · exact .cons rfl nofun
    · exact nofun

theorem digits_numerals (c : Nat) (e : Int) : Numerals (Layout.yaml.digits c e) := by
  have hd := (decimalDigits_digits c).numerals
  unfold Layout.digits
  split
  · exact List.all_eq_true.1 (show ['0', '.', '0'].all isNumeral = true from rfl)
  · dsimp only
    split
    · exact positional_numerals hd _
    · exact scientific_numerals hd _

theorem show_numerals (x : Float) : Numerals (Layout.yaml.show x).toList := by
  unfold Layout.show
  split
  · rw [String.toList_ofList]
    exact (sign_numerals _).append (digits_numerals _ _)
  · split
    · exact List.all_eq_true.1 rfl
    · split <;> exact List.all_eq_true.1 rfl

end LunchRush.Number
