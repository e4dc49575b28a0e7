import LunchRush.Generate.Restaurant
import LunchRush.Proofs.Number.Text
import LunchRush.Proofs.Random.Draws
import LunchRush.Proofs.Text.Span
/-!
# What drawn texts look like

Every address and every secret key that is drawn has the form that the gateway asks for
(`address_yields`, `secretKey_yields`), and a sentence is a row of four to nine words with a period
at its end (`sentence_yields`).
-/

namespace LunchRush.Generate

open LunchRush.Random
open LunchRush.Text (Stops span_append)

variable {σ : Type} [Source σ]

/-! ## Addresses -/

/-- Names and digits hold no at-sign. -/
theorem user_chars {given surname : String} (hg : given ∈ givenNames) (hs : surname ∈ surnames)
    (number : Nat) : ∀ c ∈ (given ++ "." ++ lowered surname ++ toString number).toList,
      (c != '@') = true := by
  have hgiven : ∀ g ∈ givenNames, g.toList.all (· != '@') = true := by decide
  have hsurname : ∀ s ∈ surnames, (lowered s).toList.all (· != '@') = true := by decide +kernel
  have hdot : ".".toList.all (· != '@') = true := by decide
  have hdigits : (toString number).toList.all (· != '@') = true := List.all_eq_true.2 fun c hc => by
    have hd : c.isDigit = true := Number.decimalDigits_digits number c (by
      simpa [Number.decimalDigits, toString, Nat.repr] using hc)
    rw [bne_iff_ne]
    rintro rfl
    revert hd
    decide
  rw [← List.all_eq_true]
  simp only [String.toList_append, List.all_append, hgiven given hg, hsurname surname hs, hdot, hdigits,
    Bool.and_self]

theorem address_yields : Yields (address : Draw σ String) fun email => isAddress email = true := by
  refine (pick_yields (by decide)).bind fun given hg => (pick_yields (by decide)).bind fun surname hs =>
    (lessThan16_yields (by decide)).bind fun number _ => (pick_yields (by decide)).bind fun domain hd =>
    .pure ?_
  have hdomains : ∀ d ∈ domains, (d.toList.contains '.' && d.toList.head? != some '.' &&
      d.toList.getLast? != some '.' && !d.toList.contains '@') = true := by decide
  have huser := user_chars hg hs number
  have hcons : (given ++ "." ++ lowered surname ++ toString number ++ "@" ++ domain).toList =
      (given ++ "." ++ lowered surname ++ toString number).toList ++ '@' :: domain.toList := by
    simp [String.toList_append]
  have hne : (given ++ "." ++ lowered surname ++ toString number).toList ≠ [] := by
    simp [String.toList_append]
  unfold isAddress
  rw [hcons, span_append huser (.cons _ (by decide))]
  have := hdomains domain hd
  simp_all

/-! ## Sentences -/

/-- A word is not empty and holds no white space. -/
def IsWord (word : String) : Prop := word ≠ "" ∧ word.toList.all (!Text.isSpace ·) = true

instance : DecidablePred IsWord := fun _ => inferInstanceAs (Decidable (_ ∧ _))

/-- Some words with spaces between them and a period at the end. -/
def IsSentence (text : String) (words : List String) : Prop :=
  (∀ word ∈ words, IsWord word) ∧ text = " ".intercalate words ++ "."

theorem capitalized_append {word : String} (h : word ≠ "") (rest : String) :
    capitalized (word ++ rest) = capitalized word ++ rest := by
  unfold capitalized
  rw [String.toList_append]
  cases hw : word.toList with
  | nil => exact absurd (String.toList_eq_nil_iff.1 hw) h
  | cons c cs =>
    apply String.toList_injective
    simp

/-- Only the first word gets a capital. -/
theorem capitalized_intercalate {word : String} (h : word ≠ "") (words : List String) :
    capitalized (" ".intercalate (word :: words)) = " ".intercalate (capitalized word :: words) := by
  cases words with
  | nil => rw [String.intercalate_singleton, String.intercalate_singleton]
  | cons next words =>
    rw [String.intercalate_cons_cons, String.intercalate_cons_cons, String.append_assoc,
      capitalized_append h, String.append_assoc]

theorem sentence_yields : Yields (sentence : Draw σ String) fun text =>
    ∃ words, 4 ≤ words.length ∧ words.length ≤ 9 ∧ IsSentence text words := by
  have hfiller : ∀ word ∈ filler, IsWord word ∧ IsWord (capitalized word) := by decide +kernel
  refine (between32_yields (by decide)).bind fun count hc =>
    (times_yields (pick_yields (by decide)) count).bind fun words hw => .pure ?_
  obtain ⟨hlen, hmem⟩ := hw
  cases words with
  | nil => simp at hlen; omega
  | cons word words =>
    rw [List.forall_mem_cons] at hmem
    refine ⟨capitalized word :: words, by simpa [← hlen] using hc.1, by simpa [← hlen] using hc.2,
      List.forall_mem_cons.2 ⟨(hfiller word hmem.1).2, fun w hw => (hfiller w (hmem.2 w hw)).1⟩, ?_⟩
    rw [capitalized_intercalate (hfiller word hmem.1).1.1]

/-! ## Secret keys -/

/-- A byte is written with two digits. -/
theorem byteChars_hex {n : Nat} (h : n < 256) :
    (byteChars n).length = 2 ∧ (byteChars n).all isHexDigit = true := by
  have hall : ∀ n < 256, (byteChars n).length = 2 ∧ (byteChars n).all isHexDigit = true := by
    decide +kernel
  exact hall n h

theorem length_flatMap_two {α : Type} {f : α → List Char} (xs : List α)
    (h : ∀ x ∈ xs, (f x).length = 2) : (xs.flatMap f).length = 2 * xs.length := by
  induction xs with
  | nil => rfl
  | cons x xs ih =>
    rw [List.forall_mem_cons] at h
    rw [List.flatMap_cons, List.length_append, h.1, ih h.2, List.length_cons]
    omega

/-- Between the places of the hyphens there are digits. -/
theorem hexDigits_between {cs : List Char} (start : Nat) (hc : ∀ c ∈ cs, isHexDigit c = true)
    (hk : ∀ i < cs.length, ¬(start + i = 8 ∨ start + i = 13 ∨ start + i = 18 ∨ start + i = 23)) :
    ∀ c i, (c, i) ∈ cs.zipIdx start →
      if i = 8 ∨ i = 13 ∨ i = 18 ∨ i = 23 then c = '-' else isHexDigit c = true := by
  intro c i hm
  obtain ⟨hl, hh, hget⟩ := List.mem_zipIdx hm
  have hi := hk (i - start) (by omega)
  rw [Nat.add_sub_cancel' hl] at hi
  rw [if_neg hi, hget]
  exact hc _ (List.getElem_mem _)

/-- Thirty-two digits with hyphens behind 8, 4, 4 and 4 of them. -/
theorem isHyphenated_parts {digits : List Char} (hlen : digits.length = 32)
    (hc : ∀ c ∈ digits, isHexDigit c = true) :
    isHyphenated (digits.take 8 ++ '-' :: (digits.drop 8).take 4 ++ '-' :: (digits.drop 12).take 4 ++
      '-' :: (digits.drop 16).take 4 ++ '-' :: (digits.drop 20).take 12) = true := by
  have hpart : ∀ start count, ∀ c ∈ (digits.drop start).take count, isHexDigit c = true :=
    fun _ _ c hm => hc c (List.mem_of_mem_drop (List.mem_of_mem_take hm))
  have hlength : ∀ start count, ((digits.drop start).take count).length = min count (32 - start) :=
    fun _ _ => by rw [List.length_take, List.length_drop, hlen]
  have h₀ := hexDigits_between 0 (hpart 0 8) (by rw [hlength]; decide)
  have h₁ := hexDigits_between 9 (hpart 8 4) (by rw [hlength]; decide)
  have h₂ := hexDigits_between 14 (hpart 12 4) (by rw [hlength]; decide)
  have h₃ := hexDigits_between 19 (hpart 16 4) (by rw [hlength]; decide)
  have h₄ := hexDigits_between 24 (hpart 20 12) (by rw [hlength]; decide)
  rw [List.drop_zero] at h₀
  simpa [isHyphenated, List.zipIdx_append, List.zipIdx_cons, hlen] using ⟨h₀, h₁, h₂, h₃, h₄⟩

theorem secretKey_yields : Yields (secretKey : Draw σ String) fun key => isSecretKey key = true := by
  refine (times_yields word32_yields 16).bind fun words hw => .pure ?_
  unfold uuidText
  generalize hbytes : (words.map (· % 256)).zipIdx = bytes
  have hbyte : ∀ p ∈ bytes, (if p.2 = 6 then p.1 % 16 + 64 else if p.2 = 8 then p.1 % 64 + 128 else p.1) < 256 := by
    intro p hp
    obtain ⟨-, -, hget⟩ := List.mem_zipIdx (hbytes ▸ hp)
    simp only [List.getElem_map] at hget
    split
    · omega
    · split <;> omega
  have hlen : bytes.length = 16 := by rw [← hbytes, List.length_zipIdx, List.length_map, hw.1]
  have hlength : (bytes.flatMap fun p => byteChars (if p.2 = 6 then p.1 % 16 + 64
      else if p.2 = 8 then p.1 % 64 + 128 else p.1)).length = 32 := by
    rw [length_flatMap_two _ fun p hp => (byteChars_hex (hbyte p hp)).1, hlen]
  have hhyphenated := isHyphenated_parts hlength fun c hc => by
    obtain ⟨p, hp, hcp⟩ := List.mem_flatMap.1 hc
    exact List.all_eq_true.1 (byteChars_hex (hbyte p hp)).2 c hcp
  unfold isSecretKey
  rw [String.toList_ofList]
  simp only [Bool.or_eq_true]
  exact .inl (.inl (.inr hhyphenated))

end LunchRush.Generate
