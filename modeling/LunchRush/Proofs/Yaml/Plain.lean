import LunchRush.Proofs.Yaml.Printer
import LunchRush.Yaml.Plain
/-!
# Plain scalars read back

A plain text is read up to the end of its line (`plain?_text`), and a key up to its colon
(`plain?_key`).
-/

namespace LunchRush.Yaml

open LunchRush.Text (Stops stretches)

theorem atGap_eq {c : Cursor} {ch : Char} {rest : List Char} (h : c.rest = ch :: rest) :
    c.atGap = isGap ch := by
  rw [Cursor.atGap, Cursor.peek_eq h]
  rfl

theorem isEnd_eq {c : Cursor} {ch : Char} {rest : List Char} (h : c.rest = ch :: rest) :
    c.isEnd = false := by
  rw [Cursor.isEnd, h]
  rfl

/-- A word is read up to white space, or up to a colon before white space. -/
theorem plainWord?_word {word : List Char} {ch : Char} {tail : List Char}
    (hw : ∀ a ∈ word, isGap a = false) (hin : (word ++ [' ']).IsChain Apart)
    (hend : isGap ch = true ∨ (ch = ':' ∧ tail.head?.all isGap = true)) {c : Cursor} {fuel : Nat}
    (hc : c.rest = word ++ ch :: tail) (hf : word.length < fuel) :
    plainWord? false fuel c = some (word, c.skip word.length) := by
  obtain ⟨fuel, rfl⟩ : ∃ k, fuel = k + 1 := ⟨fuel - 1, by omega⟩
  induction word generalizing c fuel with
  | nil =>
    have hpeek := Cursor.peek_eq hc
    have hafter := Cursor.gapAfter_one hc
    unfold plainWord?
    rw [hpeek]
    rcases hend with hg | ⟨rfl, ht⟩
    · have hg : (isBlank ch || isBreak ch) = true := hg
      simp [hg, Cursor.skip_zero]
    · rw [ht] at hafter
      simp [hafter, Cursor.skip_zero]
  | cons a word ih =>
    obtain ⟨fuel, rfl⟩ : ∃ k, fuel = k + 1 := ⟨fuel - 1, by simp at hf; omega⟩
    have hpeek := Cursor.peek_eq hc
    have hg : (isBlank a || isBreak a) = false := hw a List.mem_cons_self
    have hnext : a = ':' → (word ++ ch :: tail).head?.all isGap = false := by
      cases word with
      | nil => exact fun ha => absurd ((List.isChain_cons_cons.1 hin).1.1 ha) (by decide)
      | cons b word => exact (List.isChain_cons_cons.1 hin).1.1
    have hcolon : (a == ':' && c.gapAfter 1) = false := by
      rw [Cursor.gapAfter_one hc]
      simpa using hnext
    have hlater := ih (c := c.skip 1) (fun b hb => hw b (List.mem_cons_of_mem _ hb)) hin.of_cons
      (by simp [hc]) fuel (by simpa using hf)
    unfold plainWord?
    rw [hpeek]
    simp [hg, hcolon, hlater, Cursor.skip_skip, Nat.add_comm]

theorem name_apart {a : Char} (h : isNameChar a = true) : isGap a = false ∧ a ≠ ':' ∧ a ≠ '#' := by
  exact ⟨not_gap h rfl, ne_of_kind h rfl, ne_of_kind h rfl⟩

/-- A key is read up to its colon. -/
theorem plain?_key {indent : Nat} {key tail : List Char} (hne : key ≠ [])
    (hk : ∀ a ∈ key, isNameChar a = true) (ht : tail.head?.all isGap = true) {c : Cursor}
    (hc : c.rest = key ++ ':' :: tail) (hm : c.atDocumentMarker = false) :
    plain? false indent c = some (key, false, c.skip key.length) := by
  have hchain : (key ++ [' ']).IsChain Apart := isChain_of_inert fun a ha =>
    ⟨(name_apart (hk a ha)).1, (name_apart (hk a ha)).2.1⟩
  have hword : plainWord? false (c.rest.length + 1) c = some (key, c.skip key.length) :=
    plainWord?_word (fun a ha => (name_apart (hk a ha)).1) hchain (.inr ⟨rfl, ht⟩) hc (Cursor.length_lt hc)
  have hafter := Cursor.skip_append_rest hc
  have hpeek : (c.peek == some '#') = false := by
    cases key with
    | nil => exact absurd rfl hne
    | cons a key => simpa [Cursor.peek_eq hc] using (name_apart (hk a List.mem_cons_self)).2.2
  have hempty : key.isEmpty = false := by simpa using hne
  unfold plain? plainFrom?
  rw [hm, hpeek, hword]
  simp [hempty, isEnd_eq hafter, atGap_eq hafter, Gap.none, Gap.text, show isGap ':' = false from rfl]

/-- A word and the white space after it are read; the text ends there if the next line is not
indented enough. -/
theorem plainFrom?_word {indent fuel : Nat} {g gap : Gap} {word : List Char} {ch : Char}
    {tail : List Char} {c c' : Cursor} (ht : Words word) (hw : ∀ a ∈ word, isGap a = false)
    (hch : isGap ch = true) (hc : c.rest = word ++ ch :: tail) (hm : c.atDocumentMarker = false)
    (hread : Gap.read? indent ((c.skip word.length).rest.length + 1) Gap.none (c.skip word.length) =
      some (gap, c')) :
    plainFrom? false indent (fuel + 1) g c =
      if c'.column < indent then some (g.text ++ word, gap.broken, c')
      else (plainFrom? false indent fuel gap c').map fun r => (g.text ++ word ++ r.1, r.2) := by
  have hword : plainWord? false (c.rest.length + 1) c = some (word, c.skip word.length) :=
    plainWord?_word hw ht.inside.of_cons (.inl hch) hc (Cursor.length_lt hc)
  have hafter := Cursor.skip_append_rest hc
  have hpeek : (c.peek == some '#') = false := by
    cases word with
    | nil => exact absurd rfl ht.ne_nil
    | cons a word => simpa [Cursor.peek_eq hc] using (List.isChain_cons_cons.1 ht.inside).1.2 rfl
  have hempty : word.isEmpty = false := by simpa using ht.ne_nil
  rw [plainFrom?, hm, hpeek, hword]
  simp only [hempty, isEnd_eq hafter, atGap_eq hafter, hch, hread, Bool.false_eq_true, if_false,
    Bool.or_self, Bool.not_true, Bool.not_false, Bool.true_and, decide_eq_true_eq]

/-- The words of a plain text and the spaces between them are read up to the end of the line. -/
theorem plainFrom?_words {indent n : Nat} {text rest : List Char} (ht : Words text)
    (hr : Stops isGap rest) (hn : n < indent) {fuel : Nat} {g : Gap} {c : Cursor}
    (hc : c.rest = text ++ '\n' :: (spaces n ++ rest)) (hcol : indent ≤ c.column)
    (hf : text.length < fuel) :
    ∃ c', plainFrom? false indent fuel g c = some (g.text ++ text, true, c') ∧
      c'.rest = rest ∧ c'.column = n := by
  -- by the words of the text; after the last of them the line ends, and the next is not indented enough
  induction text using stretches (p := isGap) generalizing fuel g c with
  | last word hw =>
    obtain ⟨fuel, rfl⟩ : ∃ k, fuel = k + 1 := ⟨fuel - 1, by omega⟩
    have hm : c.atDocumentMarker = false := Cursor.not_atDocumentMarker (by omega)
    have hafter := Cursor.skip_append_rest hc
    have hlen : ([] : List Char).length + n < (c.skip word.length).rest.length + 1 := by
      rw [hafter, List.length_cons, List.length_append, spaces_length, List.length_nil]
      omega
    have hbreak : ∀ a ∈ ['\n'], isBreak a = true ∧ a ≠ '\r' := by simp [isBreak]
    obtain ⟨c', hread, hrest, hcol'⟩ := Gap.read?_lines indent ((c.skip word.length).rest.length + 1)
      hafter hbreak hr hlen
    refine ⟨c', ?_, hrest, hcol'⟩
    rw [plainFrom?_word ht hw rfl hc hm hread, if_pos (by omega)]
    rfl
  | gap word gap rest' hw hne hgap hrest ih =>
    obtain ⟨fuel, rfl⟩ : ∃ k, fuel = k + 1 := ⟨fuel - 1, by omega⟩
    have hm : c.atDocumentMarker = false := Cursor.not_atDocumentMarker (by omega)
    obtain ⟨k, rfl, hleft, hright⟩ := ht.cut hw hne hgap hrest
    rw [List.append_assoc, List.append_assoc] at hc
    have hafter := Cursor.skip_append_rest hc
    have hstop : Stops isGap (rest' ++ '\n' :: (spaces n ++ rest)) := by
      cases rest' with
      | nil => exact absurd rfl hright.ne_nil
      | cons a rest' => exact .cons _ (hrest a rfl)
    have hread := Gap.read?_blanks indent ((c.skip word.length).rest.length + 1) (k + 1) [] hafter hstop
      (by simpa using Nat.le_of_lt (Cursor.length_lt hafter))
    have hlen : rest'.length < fuel := by
      simp at hf
      omega
    obtain ⟨c', hlater, hrest', hcol'⟩ := ih hright (g := Gap.blank ([] ++ spaces (k + 1)))
      (c := (c.skip word.length).skip (k + 1))
      (by rw [Cursor.skip_rest _ (k + 1), hafter]; simp [spaces]) (by simp; omega) hlen
    refine ⟨c', ?_, hrest', hcol'⟩
    have hc : c.rest = word ++ ' ' :: (spaces k ++ (rest' ++ '\n' :: (spaces n ++ rest))) := hc
    rw [plainFrom?_word hleft hw rfl hc hm hread, if_neg (by simp; omega), hlater]
    simp [Gap.text, Gap.blank]

/-- A plain text is read up to the end of its line, and the indentation of the next line is passed
over. -/
theorem plain?_text (indent : Nat) {n : Nat} {text rest : List Char} (ht : Plain text)
    (hr : Stops isGap rest) (hn : n < indent) {c : Cursor}
    (hc : c.rest = text ++ '\n' :: (spaces n ++ rest)) (hcol : indent ≤ c.column) :
    ∃ c', plain? false indent c = some (text, true, c') ∧ c'.rest = rest ∧ c'.column = n :=
  plainFrom?_words ht.toWords hr hn hc hcol (Cursor.length_lt hc)

end LunchRush.Yaml
