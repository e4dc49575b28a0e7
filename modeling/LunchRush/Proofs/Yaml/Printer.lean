import LunchRush.Proofs.Yaml.Cursor
import LunchRush.Yaml.Printer
import Mathlib.Data.List.Chain
/-!
# What each way of writing asks of a text

The writer looks at a text before it chooses how to write it (`styleOf`). What it has found out is
what the reader needs: no character that has to be escaped, no space beside a line break where it
would be lost, no indicator in a plain text.
-/

namespace LunchRush.Yaml

open LunchRush.Text (Stops)

/-- The white space that is not escaped. -/
theorem shown_gap {c : Char} (hs : isShown c = true) (hg : isGap c = true) :
    c = ' ' ∨ c = '\n' ∨ c = '\u2028' ∨ c = '\u2029' := by
  simp only [isShown, Bool.and_eq_true, bne_iff_ne] at hs
  simp only [isGap, isBlank, isBreak, Bool.or_eq_true, beq_iff_eq] at hg
  rcases hg with (rfl | rfl) | (((rfl | rfl) | rfl) | rfl) | rfl <;> simp_all

theorem isChain_of_hasPair {p : Char → Char → Bool} {cs : List Char} (h : hasPair p cs = false) :
    cs.IsChain (p · · = false) := by
  induction cs with
  | nil => exact .nil
  | cons a cs ih =>
    cases cs with
    | nil => exact .singleton a
    | cons b cs =>
      rw [hasPair, Bool.or_eq_false_iff] at h
      exact .cons_cons h.1 (ih h.2)

/-- Nothing in the text needs double quotes: every character is written as it is, and no space ends
a line. -/
structure Shown (cs : List Char) : Prop where
  all : ∀ c ∈ cs, isShown c = true
  lines : cs.IsChain fun a b => a = ' ' → isBreak b = false

theorem Shown.of_needsEscapes {cs : List Char} (h : needsEscapes cs = false) : Shown cs := by
  rw [needsEscapes, Bool.or_eq_false_iff, Bool.not_eq_false', List.all_eq_true] at h
  refine ⟨h.2, (isChain_of_hasPair h.1).imp fun a b hab ha => ?_⟩
  simpa [ha] using hab

theorem Shown.right_of_append {xs ys : List Char} (h : Shown (xs ++ ys)) : Shown ys :=
  ⟨fun c hc => h.all c (List.mem_append_right _ hc), h.lines.right_of_append⟩

/-- The text can stand between single quotes: moreover no space starts a line, and no line feed is
there. -/
structure Quotable (cs : List Char) : Prop extends Shown cs where
  indents : cs.IsChain fun a b => isBreak a = true → b ≠ ' '
  lineFeed : '\n' ∉ cs

theorem Quotable.of_fitsSingleQuotes {cs : List Char} (h : fitsSingleQuotes cs = true)
    (hlf : cs.contains '\n' = false) : Quotable cs := by
  rw [fitsSingleQuotes, Bool.and_eq_true, Bool.not_eq_true', Bool.not_eq_true'] at h
  refine ⟨.of_needsEscapes h.1, (isChain_of_hasPair h.2).imp fun a b hab ha hb => ?_, ?_⟩
  · simp [ha, hb] at hab
  · simpa using hlf

theorem Quotable.right_of_append {xs ys : List Char} (h : Quotable (xs ++ ys)) : Quotable ys :=
  ⟨h.toShown.right_of_append, h.indents.right_of_append,
    fun hlf => h.lineFeed (List.mem_append_right _ hlf)⟩

theorem Quotable.left_of_append {xs ys : List Char} (h : Quotable (xs ++ ys)) : Quotable xs :=
  ⟨⟨fun c hc => h.all c (List.mem_append_left _ hc), h.lines.left_of_append⟩,
    h.indents.left_of_append, fun hlf => h.lineFeed (List.mem_append_left _ hlf)⟩

/-- White space between single quotes is all spaces or all separators. -/
theorem Quotable.gap {gap : List Char} (h : Quotable gap) (hg : ∀ c ∈ gap, isGap c = true) :
    (∀ c ∈ gap, c = ' ') ∨ ∀ c ∈ gap, c = '\u2028' ∨ c = '\u2029' := by
  induction gap with
  | nil => exact .inl nofun
  | cons a gap ih =>
    have hwhite := shown_gap (h.all a List.mem_cons_self) (hg a List.mem_cons_self)
    have ha : a ≠ '\n' := fun heq => h.lineFeed (heq ▸ List.mem_cons_self)
    have hrest := ih (.right_of_append (show Quotable ([a] ++ gap) from h)) fun c hc =>
      hg c (List.mem_cons_of_mem _ hc)
    cases gap with
    | nil =>
      rcases hwhite with rfl | rfl | hsep
      · exact .inl (by simp)
      · exact absurd rfl ha
      · exact .inr (by simpa using hsep)
    | cons b gap =>
      have hline := (List.isChain_cons_cons.1 h.lines).1
      have hindent := (List.isChain_cons_cons.1 h.indents).1
      -- a space and a separator never stand side by side
      rcases hwhite with rfl | rfl | hsep
      · rcases hrest with hrest | hrest
        · exact .inl (List.forall_mem_cons.2 ⟨rfl, hrest⟩)
        · rcases hrest b List.mem_cons_self with rfl | rfl <;> cases hline rfl
      · exact absurd rfl ha
      · rcases hrest with hrest | hrest
        · refine absurd (hrest b List.mem_cons_self) (hindent ?_)
          rcases hsep with rfl | rfl <;> rfl
        · exact .inr (List.forall_mem_cons.2 ⟨hsep, hrest⟩)

/-! ## Plain texts -/

/-- What may stand side by side in a plain text: a colon ends it before white space, and a number
sign starts a comment after white space. -/
def Apart (a b : Char) : Prop := (a = ':' → isGap b = false) ∧ (isGap a = true → b ≠ '#')

theorem isChain_of_inert {cs : List Char} (h : ∀ a ∈ cs, isGap a = false ∧ a ≠ ':') :
    (cs ++ [' ']).IsChain Apart := by
  induction cs with
  | nil => exact .singleton _
  | cons a cs ih =>
    obtain ⟨hg, hc⟩ := h a List.mem_cons_self
    have hlater := ih fun b hb => h b (List.mem_cons_of_mem _ hb)
    have ha : ∀ b, Apart a b := fun b => ⟨fun hac => absurd hac hc, fun hga => by simp [hg] at hga⟩
    cases cs with
    | nil => exact .cons_cons (ha _) hlater
    | cons b cs => exact .cons_cons (ha _) hlater

/-- Words with spaces between them, and nothing that would end the text, not even with white space
around it. -/
structure Words (cs : List Char) : Prop where
  ne_nil : cs ≠ []
  white : ∀ c ∈ cs, isGap c = true → c = ' '
  head : cs.head? ≠ some ' '
  last : cs.getLast? ≠ some ' '
  inside : (' ' :: (cs ++ [' '])).IsChain Apart

/-- The text can be plain: moreover it does not start with an indicator or a byte order mark. -/
structure Plain (cs : List Char) : Prop extends Words cs where
  first : ∀ c rest, cs = c :: rest → isIndicatorFirst c rest.head? = false
  mark : cs.head? ≠ some '\ufeff'

/-- The first word, the spaces after it, and the words after them. -/
theorem Words.cut {word gap rest : List Char} (h : Words (word ++ (gap ++ rest)))
    (hw : ∀ c ∈ word, isGap c = false) (hne : gap ≠ []) (hgap : ∀ c ∈ gap, isGap c = true)
    (hrest : Stops isGap rest) : ∃ k, gap = spaces (k + 1) ∧ Words word ∧ Words rest := by
  have hspaces : ∀ c ∈ gap, c = ' ' := fun c hc => h.white c (by simp [hc]) (hgap c hc)
  obtain ⟨k, rfl⟩ : ∃ k, gap = spaces (k + 1) := by
    refine ⟨gap.length - 1, ?_⟩
    rw [Nat.sub_add_cancel (List.length_pos_iff.2 hne)]
    exact List.eq_replicate_of_mem hspaces
  have hcons : spaces (k + 1) = ' ' :: spaces k := rfl
  have hsnoc : spaces (k + 1) = spaces k ++ [' '] := List.replicate_succ'
  have hword_ne : word ≠ [] := by
    rintro rfl
    exact h.head rfl
  have hrest_ne : rest ≠ [] := by
    rintro rfl
    exact h.last (by simp [hsnoc])
  have hnot : ∀ {xs : List Char}, (∀ c ∈ xs, isGap c = false) → ' ' ∉ xs := fun hxs hmem => by
    cases hxs _ hmem
  refine ⟨k, rfl, ⟨hword_ne, fun c hc => h.white c (by simp [hc]), fun hhead => ?_, fun hlast => ?_, ?_⟩,
    hrest_ne, fun c hc => h.white c (by simp [hc]), fun hhead => ?_, fun hlast => ?_, ?_⟩
  · exact hnot hw (List.mem_of_head? hhead)
  · exact hnot hw (List.mem_of_getLast? hlast)
  · have hchain : ((' ' :: (word ++ [' '])) ++ (spaces k ++ (rest ++ [' ']))).IsChain Apart := by
      simpa [hcons] using h.inside
    exact hchain.left_of_append
  · cases hrest ' ' hhead
  · refine h.last ?_
    rw [← List.append_assoc, List.getLast?_append_of_ne_nil _ hrest_ne, hlast]
  · have hchain : ((' ' :: (word ++ spaces k)) ++ (' ' :: (rest ++ [' ']))).IsChain Apart := by
      simpa [hsnoc] using h.inside
    exact hchain.right_of_append

/-- No leading indicator is a character of a kind that has none of them. -/
theorem not_leading {p : Char → Bool} {c : Char} (hc : p c = true)
    (hp : "#,[]&*!|>'\"%@\x7b\x7d\x60".toList.all (!p ·) = true) : isLeadingIndicator c = false := by
  refine Bool.eq_false_iff.2 fun hlead => not_mem_of_kind hc hp ?_
  simp [isLeadingIndicator] at hlead ⊢
  tauto

theorem isGap_of_not_isGapOrEnd {c : Char} (h : isGapOrEnd (some c) = false) : isGap c = false := by
  simp only [isGapOrEnd, Option.all_some, Bool.or_eq_false_iff] at h
  exact Bool.or_eq_false_iff.2 h.1

theorem isChain_of_hasIndicatorInside {a : Char} {cs : List Char}
    (h : hasIndicatorInside a cs = false) (ha : a = ':' → isGapOrEnd cs.head? = false) :
    (a :: (cs ++ [' '])).IsChain Apart := by
  induction cs generalizing a with
  | nil =>
    refine .cons_cons ⟨fun hc => ?_, fun _ => by decide⟩ (.singleton _)
    cases ha hc
  | cons b cs ih =>
    rw [hasIndicatorInside, Bool.or_eq_false_iff, isIndicatorInside, Bool.or_eq_false_iff] at h
    obtain ⟨⟨hcolon, hsign⟩, hrest⟩ := h
    refine .cons_cons ⟨fun hc => isGap_of_not_isGapOrEnd (ha hc), fun hg hb => ?_⟩ (ih hrest fun hb => ?_)
    · have hg : isGapOrEnd (some a) = true := by
        rw [isGap] at hg
        simp [isGapOrEnd, hg]
      simp [hb, hg] at hsign
    · simpa [hb] using hcolon

theorem Plain.of_fitsPlain {cs : List Char} (h : fitsPlain cs = true) (hne : cs ≠ []) : Plain cs := by
  simp only [fitsPlain, Bool.and_eq_true, Bool.not_eq_true', bne_iff_ne] at h
  obtain ⟨⟨⟨⟨hesc, hind⟩, hbreaks⟩, hhead⟩, hlast⟩ := h
  have hshown := (Shown.of_needsEscapes hesc).all
  refine ⟨⟨hne, fun c hc hg => ?_, hhead, hlast, ?_⟩, ?_, fun hmark => ?_⟩
  · rcases shown_gap (hshown c hc) hg with rfl | rfl | rfl | rfl
    · rfl
    all_goals exact absurd (List.any_eq_false.1 hbreaks _ hc) (by decide)
  · cases cs with
    | nil => exact absurd rfl hne
    | cons c rest =>
      simp only [hasIndicator, Bool.or_eq_false_iff] at hind
      obtain ⟨⟨-, hfirst⟩, hinside⟩ := hind
      rw [isIndicatorFirst, Bool.or_eq_false_iff] at hfirst
      refine .cons_cons ⟨nofun, fun _ hc => ?_⟩ (isChain_of_hasIndicatorInside hinside fun hc => ?_)
      · simp [hc, isLeadingIndicator] at hfirst
      · simpa [hc] using hfirst.2
  · rintro c rest rfl
    simp only [hasIndicator, Bool.or_eq_false_iff] at hind
    exact hind.1.2
  · cases hshown _ (List.mem_of_head? hmark)

/-! ## The choice -/

/-- What is known of a text that is written in a style. -/
inductive Styled (cs : List Char) : Style → Prop where
  | plain (h : Plain cs) (hs : Shown cs) : Styled cs .plain
  | singleQuoted (h : Quotable cs) : Styled cs .singleQuoted
  | literal (hne : cs ≠ []) (hs : Shown cs) : Styled cs .literal
  | doubleQuoted : Styled cs .doubleQuoted

theorem styled_styleOf (s : String) : Styled s.toList (styleOf s) := by
  unfold styleOf
  dsimp only
  split
  · rename_i hlf
    split
    · rename_i hfits
      simp only [fitsLiteral, Bool.and_eq_true, Bool.not_eq_true'] at hfits
      refine .literal (fun hnil => ?_) (.of_needsEscapes hfits.1)
      rw [hnil] at hlf
      cases hlf
    · exact .doubleQuoted
  · rename_i hlf
    split
    · rename_i hfits
      rw [Bool.and_eq_true, Bool.not_eq_true'] at hfits
      have hne : s.toList ≠ [] := fun hnil => by
        rw [String.toList_eq_nil_iff.1 hnil] at hfits
        cases hfits.2
      have hplain := hfits.1
      simp only [fitsPlain, Bool.and_eq_true, Bool.not_eq_true'] at hplain
      exact .plain (.of_fitsPlain hfits.1 hne) (.of_needsEscapes hplain.1.1.1.1)
    · split
      · rename_i hfits
        exact .singleQuoted (.of_fitsSingleQuotes hfits (by simpa using hlf))
      · exact .doubleQuoted

end LunchRush.Yaml
