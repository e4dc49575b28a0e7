import LunchRush.Proofs.Text.Span
import LunchRush.Yaml.Gap
/-!
# Moving through a text

What a cursor sees after it has moved, and what is read of the gaps in a scalar: blanks on one line
stay as they are (`read?_blanks`), and line breaks are taken with the indentation that follows
(`read?_lines`).
-/

namespace LunchRush.Yaml

open LunchRush.Text (Stops span_append)

/-- White space. -/
def isGap (c : Char) : Bool := isBlank c || isBreak c

theorem isBlank_of_isBreak {c : Char} (h : isBreak c = true) : isBlank c = false := by
  simp only [isBreak, Bool.or_eq_true, beq_iff_eq] at h
  rcases h with (((rfl | rfl) | rfl) | rfl) | rfl <;> rfl

/-! ## Kinds of characters -/

theorem ne_of_kind {p : Char → Bool} {a b : Char} (ha : p a = true) (hb : p b = false) : a ≠ b := by
  rintro rfl
  rw [ha] at hb
  cases hb

theorem not_mem_of_kind {p : Char → Bool} {c : Char} {cs : List Char} (hc : p c = true)
    (hp : cs.all (!p ·) = true) : c ∉ cs := fun hmem => by
  simpa [hc] using List.all_eq_true.1 hp c hmem

/-- No white space is a character of a kind that has none of it. -/
theorem not_gap {p : Char → Bool} {c : Char} (hc : p c = true)
    (hp : " \t\n\r\u0085\u2028\u2029".toList.all (!p ·) = true) : isGap c = false := by
  refine Bool.eq_false_iff.2 fun hgap => not_mem_of_kind hc hp ?_
  simp [isGap, isBlank, isBreak] at hgap ⊢
  tauto

/-! ## Cursors -/

/-- Some spaces. -/
def spaces (n : Nat) : List Char := List.replicate n ' '

@[simp] theorem spaces_length (n : Nat) : (spaces n).length = n := List.length_replicate

theorem spaces_blank (n : Nat) : ∀ c ∈ spaces n, c = ' ' := fun _ h => List.eq_of_mem_replicate h

namespace Cursor

@[simp] theorem skip_rest (c : Cursor) (n : Nat) : (c.skip n).rest = c.rest.drop n := rfl

@[simp] theorem skip_column (c : Cursor) (n : Nat) : (c.skip n).column = c.column + n := rfl

theorem skip_skip (c : Cursor) (m n : Nat) : (c.skip m).skip n = c.skip (m + n) := by
  simp [skip, Nat.add_assoc]

theorem skip_zero (c : Cursor) : c.skip 0 = c := rfl

theorem skip_append_rest {c : Cursor} {xs ys : List Char} (h : c.rest = xs ++ ys) :
    (c.skip xs.length).rest = ys := by
  rw [skip_rest, h, List.drop_left]

theorem length_lt {c : Cursor} {xs ys : List Char} (h : c.rest = xs ++ ys) :
    xs.length < c.rest.length + 1 := by
  rw [h, List.length_append]
  omega

theorem peek_eq {c : Cursor} {ch : Char} {rest : List Char} (h : c.rest = ch :: rest) :
    c.peek = some ch := by
  rw [peek, h]
  rfl

theorem peek2_eq {c : Cursor} {ch : Char} {rest : List Char} (h : c.rest = ch :: rest) :
    c.peek2 = rest.head? := by
  rw [peek2, h]
  rfl

theorem gapAfter_one {c : Cursor} {ch : Char} {rest : List Char} (h : c.rest = ch :: rest) :
    c.gapAfter 1 = rest.head?.all isGap := by
  rw [gapAfter, h]
  rfl

/-- A line feed or one of the two separators ends the line. -/
theorem skipBreak_eq {c : Cursor} {ch : Char} {rest : List Char} (h : c.rest = ch :: rest)
    (hr : ch ≠ '\r') : c.skipBreak = ⟨rest, c.index + 1, c.line + 1, 0⟩ := by
  unfold skipBreak
  split
  · rename_i h'
    rw [h] at h'
    cases h'
    exact absurd rfl hr
  · rename_i h'
    rw [h] at h'
    cases h'
    rfl
  · rename_i h'
    rw [h] at h'
    cases h'

theorem takeWhile_eq {c : Cursor} {p : Char → Bool} {xs ys : List Char} (h : c.rest = xs ++ ys)
    (hx : ∀ a ∈ xs, p a = true) (hy : Stops p ys) : c.takeWhile p = (xs, c.skip xs.length) := by
  simp only [takeWhile, h, span_append hx hy, skip, List.drop_left]

theorem skipWhile_eq {c : Cursor} {p : Char → Bool} {xs ys : List Char} (h : c.rest = xs ++ ys)
    (hx : ∀ a ∈ xs, p a = true) (hy : Stops p ys) : c.skipWhile p = c.skip xs.length := by
  rw [skipWhile, takeWhile_eq h hx hy]

/-- No line that begins or ends a document starts to the right of the first column. -/
theorem not_atDocumentMarker {c : Cursor} (h : 0 < c.column) : c.atDocumentMarker = false := by
  have hc : (c.column == 0) = false := by simp; omega
  simp [atDocumentMarker, atMarker, hc]

end Cursor

/-! ## Gaps -/

namespace Gap

/-- The blanks of a gap on one line. -/
def blank (bs : List Char) : Gap := ⟨bs, false, Option.none, []⟩

/-- A gap over line breaks. -/
def lines (first : Char) (more : List Char) : Gap := ⟨[], true, some first, more⟩

theorem read?_stop {indent fuel : Nat} {g : Gap} {c : Cursor} (h : Stops isGap c.rest) :
    read? indent fuel g c = some (g, c) := by
  cases fuel with
  | zero => rfl
  | succ fuel =>
    unfold read? Cursor.peek
    cases hc : c.rest.head? with
    | none => rfl
    | some ch =>
      have hg := h ch hc
      simp only [isGap, Bool.or_eq_false_iff] at hg
      simp [hg.1, hg.2]

/-- Spaces on one line are kept. -/
theorem read?_blanks (indent fuel n : Nat) (before : List Char) {c : Cursor} {rest : List Char}
    (h : c.rest = spaces n ++ rest) (hr : Stops isGap rest) (hf : n ≤ fuel) :
    read? indent fuel (blank before) c = some (blank (before ++ spaces n), c.skip n) := by
  induction n generalizing fuel before c with
  | zero =>
    rw [read?_stop (by rw [h]; exact hr)]
    simp [spaces, Cursor.skip_zero]
  | succ n ih =>
    obtain ⟨fuel, rfl⟩ : ∃ k, fuel = k + 1 := ⟨fuel - 1, by omega⟩
    have hrest : c.rest = ' ' :: (spaces n ++ rest) := h
    unfold read?
    rw [Cursor.peek_eq hrest]
    have hlater : read? indent fuel (blank (before ++ [' '])) (c.skip 1) = _ :=
      ih fuel (before ++ [' ']) (by simp [hrest]) (by omega)
    simp only [blank] at hlater ⊢
    simp [isBlank, hlater, Cursor.skip_skip, spaces, List.replicate_succ, Nat.add_comm]

/-- The indentation of a further line is passed over. -/
theorem read?_indentation {indent : Nat} (n : Nat) {fuel : Nat} {g : Gap} (hg : g.broken = true)
    {c : Cursor} {rest : List Char} (h : c.rest = spaces n ++ rest) (hr : Stops isGap rest)
    (hf : n ≤ fuel) : read? indent fuel g c = some (g, c.skip n) := by
  induction n generalizing fuel c with
  | zero =>
    rw [read?_stop (by rw [h]; exact hr)]
    rfl
  | succ n ih =>
    obtain ⟨fuel, rfl⟩ : ∃ k, fuel = k + 1 := ⟨fuel - 1, by omega⟩
    have hrest : c.rest = ' ' :: (spaces n ++ rest) := h
    unfold read?
    rw [Cursor.peek_eq hrest]
    have hlater : read? indent fuel g (c.skip 1) = _ := ih (by simp [hrest]) (by omega)
    simp [isBlank, hg, hlater, Cursor.skip_skip, Nat.add_comm]

/-- Further line breaks are kept, and the indentation after them is passed over. -/
theorem read?_breaks (indent fuel : Nat) {n : Nat} (bs : List Char) (first : Char) (more : List Char)
    {c : Cursor} {rest : List Char} (h : c.rest = bs ++ (spaces n ++ rest))
    (hb : ∀ b ∈ bs, isBreak b = true ∧ b ≠ '\r') (hr : Stops isGap rest) (hf : bs.length + n ≤ fuel)
    (hcol : c.column = 0) :
    ∃ c', read? indent fuel (lines first more) c =
        some (lines first (more ++ bs.map Cursor.breakChar), c') ∧ c'.rest = rest ∧ c'.column = n := by
  induction bs generalizing fuel more c with
  | nil =>
    refine ⟨c.skip n, ?_, by simp [h, spaces], by simp [hcol]⟩
    rw [read?_indentation n rfl h hr (by simpa using hf)]
    simp
  | cons b bs ih =>
    obtain ⟨fuel, rfl⟩ : ∃ k, fuel = k + 1 := ⟨fuel - 1, by simp at hf; omega⟩
    obtain ⟨hbreak, hcr⟩ := hb b List.mem_cons_self
    have hrest : c.rest = b :: (bs ++ (spaces n ++ rest)) := h
    have hlen : bs.length + n ≤ fuel := by
      simp at hf
      omega
    obtain ⟨c', hc', hc''⟩ := ih fuel (c := c.skipBreak) (more ++ [Cursor.breakChar b])
      (by rw [Cursor.skipBreak_eq hrest hcr]) (fun b' hb' => hb b' (List.mem_cons_of_mem _ hb')) hlen
      (by rw [Cursor.skipBreak_eq hrest hcr])
    refine ⟨c', ?_, hc''⟩
    unfold read?
    rw [Cursor.peek_eq hrest]
    simp only [lines] at hc' ⊢
    simp [isBlank_of_isBreak hbreak, hbreak, hc']

/-- Line breaks and the indentation after them. -/
theorem read?_lines (indent fuel : Nat) {n : Nat} {b : Char} {bs : List Char} {c : Cursor}
    {rest : List Char} (h : c.rest = b :: bs ++ (spaces n ++ rest))
    (hb : ∀ a ∈ b :: bs, isBreak a = true ∧ a ≠ '\r') (hr : Stops isGap rest)
    (hf : bs.length + n < fuel) :
    ∃ c', read? indent fuel none c =
        some (lines (Cursor.breakChar b) (bs.map Cursor.breakChar), c') ∧
      c'.rest = rest ∧ c'.column = n := by
  obtain ⟨fuel, rfl⟩ : ∃ k, fuel = k + 1 := ⟨fuel - 1, by omega⟩
  obtain ⟨hbreak, hcr⟩ := hb b List.mem_cons_self
  have hrest : c.rest = b :: (bs ++ (spaces n ++ rest)) := h
  have hlen : bs.length + n ≤ fuel := by omega
  obtain ⟨c', hc', hc''⟩ := read?_breaks indent fuel (c := c.skipBreak) bs (Cursor.breakChar b) []
    (by rw [Cursor.skipBreak_eq hrest hcr]) (fun b' hb' => hb b' (List.mem_cons_of_mem _ hb')) hr hlen
    (by rw [Cursor.skipBreak_eq hrest hcr])
  refine ⟨c', ?_, hc''⟩
  unfold read?
  rw [Cursor.peek_eq hrest]
  simp only [lines, List.nil_append] at hc' ⊢
  simp [none, isBlank_of_isBreak hbreak, hbreak, hc']

end Gap

end LunchRush.Yaml
