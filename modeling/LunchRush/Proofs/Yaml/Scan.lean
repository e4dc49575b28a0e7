import LunchRush.Proofs.Yaml.Block
import LunchRush.Proofs.Yaml.Plain
import LunchRush.Proofs.Yaml.Quoted
import LunchRush.Yaml.Scan
/-!
# Blocks read as tokens

What a scanner has done when it stands before a word is told by `At`: where it is, which blocks are
open, and which tokens it has given out. Reading on from one such place is reading on from a later
one (`Leads`), and so a text can be taken field by field and line by line.
-/

namespace LunchRush.Yaml

open LunchRush.Text (Stops)

namespace Scan

/-! ## Tokens -/

/-- The tokens so far. -/
def tokens (s : Scan) : List Token := s.entries.foldl (expand s.filled) []

theorem expand_append (filled : List Filled) (later : List Token) (e : Entry) :
    expand filled later e = expand filled [] e ++ later := by
  cases e with
  | token t => rfl
  | slot n =>
    dsimp only [expand]
    cases filled.find? (·.slot == n) with
    | none => rfl
    | some f =>
      dsimp only
      split <;> rfl

theorem foldl_expand (filled : List Filled) (entries : List Entry) (later : List Token) :
    entries.foldl (expand filled) later = entries.foldl (expand filled) [] ++ later := by
  induction entries generalizing later with
  | nil => rfl
  | cons e entries ih =>
    rw [List.foldl_cons, ih, expand_append, ← List.append_assoc, ← ih (expand filled [] e)]
    rfl

/-- A slot that is filled later changes nothing before it. -/
theorem foldl_expand_fill {filled : List Filled} {f : Filled} {entries : List Entry}
    (h : ∀ n, .slot n ∈ entries → n < f.slot) (later : List Token) :
    entries.foldl (expand (f :: filled)) later = entries.foldl (expand filled) later := by
  induction entries generalizing later with
  | nil => rfl
  | cons e entries ih =>
    have hexpand : expand (f :: filled) later e = expand filled later e := by
      cases e with
      | token t => rfl
      | slot n =>
        have hn : (f.slot == n) = false := by
          have := h n List.mem_cons_self
          simp
          omega
        simp [expand, hn]
    rw [List.foldl_cons, List.foldl_cons, hexpand, ih fun n hn => h n (List.mem_cons_of_mem _ hn)]

theorem tokens_push (s : Scan) (t : Token) : (s.push t).tokens = s.tokens ++ [t] := by
  rw [tokens, push, List.foldl_cons, foldl_expand]
  rfl

/-! ## Reading on -/

/-- What is done once the gap before a word has been passed and blocks have ended. -/
def afterGap (fuel : Nat) (s : Scan) : Option Scan :=
  match s.cursor.peek with
  | none => s.endAllBlocks.dropKey?
  | some ch =>
    match s.word? ch with
    | none => none
    | some s => run? fuel s

/-- The place is right before a word or the end, and every key is still on time. -/
def Waits (s : Scan) : Prop :=
  skipGaps (s.cursor.rest.length + 1) s = s ∧ s.dropStale? = some s

theorem Waits.run? {s : Scan} (h : Waits s) (fuel : Nat) :
    run? (fuel + 1) s = afterGap fuel (s.endBlocks s.cursor.column) := by
  rw [Scan.run?, h.1, h.2]
  rfl

/-- Reading on from `s` is reading on from `t`, at no more than a word for every character between
them. -/
def Leads (s t : Scan) : Prop :=
  ∃ n, n + t.cursor.rest.length ≤ s.cursor.rest.length ∧
    ∀ fuel, run? (n + fuel + 1) s = run? (fuel + 1) t

theorem Leads.refl (s : Scan) : Leads s s :=
  ⟨0, by omega, fun fuel => by rw [Nat.zero_add]⟩

theorem Leads.trans {s t u : Scan} (hst : Leads s t) (htu : Leads t u) : Leads s u := by
  obtain ⟨m, hm, hst⟩ := hst
  obtain ⟨n, hn, htu⟩ := htu
  refine ⟨m + n, by omega, fun fuel => ?_⟩
  rw [show m + n + fuel + 1 = m + (n + fuel) + 1 by omega, hst, htu]

/-- A word is read. -/
theorem Waits.word {s t : Scan} {ch : Char} (h : Waits s) (hblocks : s.endBlocks s.cursor.column = s)
    (hpeek : s.cursor.peek = some ch) (hword : s.word? ch = some t)
    (hlen : t.cursor.rest.length < s.cursor.rest.length) : Leads s t := by
  refine ⟨1, by omega, fun fuel => ?_⟩
  rw [show 1 + fuel + 1 = fuel + 1 + 1 by omega, h.run?, hblocks, afterGap, hpeek]
  dsimp only
  rw [hword]

/-- A gap is passed. -/
theorem leads_of_skipGaps {s t : Scan} (h : skipGaps (s.cursor.rest.length + 1) s = t) (ht : Waits t)
    (hlen : t.cursor.rest.length ≤ s.cursor.rest.length) : Leads s t := by
  refine ⟨0, by omega, fun fuel => ?_⟩
  rw [Nat.zero_add, Scan.run?, Scan.run?, h, ht.1]

/-! ## Places -/

/-- What is passed over between words. -/
def isPassed (c : Char) : Bool := isGap c || c == '#' || c == '\ufeff'

/-- Where a scanner stands outside brackets, with no key begun: whether a key may start, the column,
the open blocks, the tokens before and the text after. -/
structure At (s : Scan) (keyAllowed : Bool) (column : Nat) (indents : List Nat) (before : List Token)
    (rest : List Char) : Prop where
  keyAllowed : s.keyAllowed = keyAllowed
  column : s.cursor.column = column
  indents : s.indents = indents
  tokens : s.tokens = before
  rest : s.cursor.rest = rest
  flow : s.flow = 0
  pending : s.pending = [none]
  slots : ∀ n, .slot n ∈ s.entries → n < s.slots

variable {s : Scan} {keyAllowed : Bool} {column : Nat} {indents : List Nat} {before : List Token}
  {rest : List Char}

theorem At.inFlow (h : At s keyAllowed column indents before rest) : s.inFlow = false := by
  rw [Scan.inFlow, h.flow]
  rfl

theorem At.dropKey? (h : At s keyAllowed column indents before rest) : s.dropKey? = some s := by
  rw [Scan.dropKey?, h.pending]

theorem At.dropStale? (h : At s keyAllowed column indents before rest) : s.dropStale? = some s := by
  have hpending := h.pending
  obtain ⟨cursor, flow, ind, allowed, pending, slots, filled, entries⟩ := s
  cases hpending
  rfl

theorem stops_gap_of_passed {rest : List Char} (h : Stops isPassed rest) : Stops isGap rest :=
  fun a ha => (Bool.or_eq_false_iff.1 (Bool.or_eq_false_iff.1 (h a ha)).1).1

theorem stops_peek {p : Char → Bool} {rest : List Char} (h : Stops p rest) {ch : Char} (hch : p ch = true) :
    (rest.head? == some ch) = false := by
  refine beq_eq_false_iff_ne.2 fun heq => ?_
  rw [h ch heq] at hch
  cases hch

/-- Spaces are skipped up to a word. -/
theorem skipGaps_spaces {n : Nat} (fuel : Nat) (hs : s.cursor.rest = spaces n ++ rest)
    (hr : Stops isPassed rest) :
    skipGaps (fuel + 1) s = { s with cursor := s.cursor.skip n } := by
  have hgap := stops_gap_of_passed hr
  have hbom : (s.cursor.index == 0 && s.cursor.peek == some '\ufeff') = false := by
    rw [Cursor.peek, hs]
    cases n with
    | zero => rw [show spaces 0 ++ rest = rest from rfl, stops_peek hr rfl, Bool.and_false]
    | succ n => simp [spaces, List.replicate_succ]
  have hskip : ∀ tabs : Bool, s.cursor.skipWhile (fun ch => ch == ' ' || (tabs && ch == '\t')) =
      s.cursor.skip n := fun tabs => by
    rw [Cursor.skipWhile_eq hs (fun a ha => by simp [spaces_blank n a ha]) fun a ha => ?_, spaces_length]
    have hblank := (Bool.or_eq_false_iff.1 (Bool.or_eq_false_iff.1 (hgap a ha)).1)
    simp [hblank.1, hblank.2]
  have hpeek : (s.cursor.skip n).peek = rest.head? := by
    rw [Cursor.peek, Cursor.skip_rest, hs]
    simp [spaces]
  have hbreak : rest.head?.any isBreak = false := by
    cases rest with
    | nil => rfl
    | cons a rest => exact (Bool.or_eq_false_iff.1 (hgap a rfl)).2
  unfold skipGaps
  simp only [hbom, hskip, hpeek, stops_peek hr (show isPassed '#' = true from rfl), hbreak,
    Bool.false_eq_true, if_false]

/-- A line break and the indentation after it are skipped. -/
theorem skipGaps_line {n : Nat} (fuel : Nat) (hs : s.cursor.rest = '\n' :: (spaces n ++ rest))
    (hr : Stops isPassed rest) (hf : s.inFlow = false) :
    skipGaps (fuel + 2) s = { s with cursor := s.cursor.skipBreak.skip n, keyAllowed := true } := by
  have hskip : ∀ tabs : Bool, s.cursor.skipWhile (fun ch => ch == ' ' || (tabs && ch == '\t')) =
      s.cursor := fun tabs =>
    Cursor.skipWhile_eq ((List.nil_append _).trans hs.symm).symm nofun (.cons _ (by simp))
  have hpeek := Cursor.peek_eq hs
  have hbreak := Cursor.skipBreak_eq hs (by decide)
  have hbom : (s.cursor.index == 0 && s.cursor.peek == some '\ufeff') = false := by
    rw [hpeek]
    simp
  have hnext : skipGaps (fuel + 1) { s with cursor := s.cursor.skipBreak, keyAllowed := true } =
      { s with cursor := s.cursor.skipBreak.skip n, keyAllowed := true } :=
    skipGaps_spaces fuel (by rw [hbreak]) hr
  rw [skipGaps]
  simp only [hbom, hskip, Bool.false_eq_true, if_false]
  simpa [hpeek, hf, isBreak] using hnext

theorem At.waits (h : At s keyAllowed column indents before rest) (hr : Stops isPassed rest) : Waits s := by
  have hrest : s.cursor.rest = spaces 0 ++ rest := h.rest
  exact ⟨skipGaps_spaces s.cursor.rest.length hrest hr, h.dropStale?⟩

/-- The same tokens, somewhere else. -/
theorem At.move (h : At s keyAllowed column indents before rest) (allowed : Bool) (c : Cursor) :
    At { s with cursor := c, keyAllowed := allowed } allowed c.column indents before c.rest :=
  ⟨rfl, rfl, h.indents, h.tokens, rfl, h.flow, h.pending, h.slots⟩

theorem At.skip_blank (h : At s keyAllowed column indents before (' ' :: rest))
    (hr : Stops isPassed rest) :
    ∃ t, Leads s t ∧ At t keyAllowed (column + 1) indents before rest := by
  obtain rfl := h.keyAllowed
  have hrest : s.cursor.rest = spaces 1 ++ rest := h.rest
  have ht := h.move s.keyAllowed (s.cursor.skip 1)
  rw [Cursor.skip_rest, Cursor.skip_column, h.rest, h.column] at ht
  refine ⟨_, leads_of_skipGaps (skipGaps_spaces _ hrest hr) (ht.waits hr) ?_, ht⟩
  simp

/-- The next line is reached, where a key may start again. -/
theorem At.skip_line {n : Nat} (h : At s keyAllowed column indents before ('\n' :: (spaces n ++ rest)))
    (hr : Stops isPassed rest) : ∃ t, Leads s t ∧ At t true n indents before rest := by
  have hskip := skipGaps_line (s.cursor.rest.length - 1) h.rest hr h.inFlow
  rw [show s.cursor.rest.length - 1 + 2 = s.cursor.rest.length + 1 by rw [h.rest]; rfl] at hskip
  have hbreak := Cursor.skipBreak_eq h.rest (by decide)
  have ht := h.move true (s.cursor.skipBreak.skip n)
  have hrest : (s.cursor.skipBreak.skip n).rest = rest := by
    rw [Cursor.skip_rest, hbreak]
    simp [spaces]
  have hcol : (s.cursor.skipBreak.skip n).column = n := by
    rw [Cursor.skip_column, hbreak, Nat.zero_add]
  rw [hrest, hcol] at ht
  refine ⟨_, leads_of_skipGaps hskip (ht.waits hr) ?_, ht⟩
  change (s.cursor.skipBreak.skip n).rest.length ≤ _
  rw [hrest, h.rest, List.length_cons, List.length_append]
  omega

/-- No block ends at a word that stands in the innermost one. -/
theorem endBlocks_eq (hf : s.inFlow = false) (h : s.indents.head?.all (· ≤ s.cursor.column) = true) :
    s.endBlocks s.cursor.column = s := by
  have htake : s.indents.takeWhile (s.cursor.column < ·) = [] ∧
      s.indents.dropWhile (s.cursor.column < ·) = s.indents := by
    cases hind : s.indents with
    | nil => exact ⟨rfl, rfl⟩
    | cons i indents =>
      have hi : ¬ s.cursor.column < i := by simpa [hind] using h
      simp [hi]
  unfold Scan.endBlocks
  rw [hf, htake.1, htake.2]
  rfl

/-- A word is read where no block ends. -/
theorem At.word {t : Scan} {ch : Char} (h : At s keyAllowed column indents before (ch :: rest))
    (hch : isPassed ch = false) (hin : indents.head?.all (· ≤ column) = true)
    (hword : s.word? ch = some t) (hlen : t.cursor.rest.length ≤ rest.length) : Leads s t := by
  have hblocks := endBlocks_eq h.inFlow (by rw [h.indents, h.column]; exact hin)
  refine (h.waits (.cons _ hch)).word hblocks (Cursor.peek_eq h.rest) hword ?_
  rw [h.rest, List.length_cons]
  omega

/-- A block ends before a word that stands to the left of it. -/
theorem At.end_block {i : Nat} (h : At s keyAllowed column (i :: indents) before rest)
    (hr : Stops isPassed rest) (hi : column < i) :
    ∃ t, Leads s t ∧ At t keyAllowed column indents (before ++ [.blockEnd]) rest := by
  have ht : At { s.push .blockEnd with indents := indents } keyAllowed column indents
      (before ++ [.blockEnd]) rest :=
    ⟨h.keyAllowed, h.column, rfl, by rw [← h.tokens]; exact tokens_push s .blockEnd, h.rest, h.flow,
      h.pending, fun n hn => h.slots n (by simpa [push] using hn)⟩
  refine ⟨_, ⟨0, by simp [push], fun fuel => ?_⟩, ht⟩
  rw [Nat.zero_add, (h.waits hr).run?, (ht.waits hr).run?]
  congr 1
  have hcons : ∀ ended : List Nat, (i :: ended).map (fun _ => Entry.token .blockEnd) ++ s.entries =
      ended.map (fun _ => .token .blockEnd) ++ .token .blockEnd :: s.entries := by
    intro ended
    induction ended with
    | nil => rfl
    | cons j ended ih => exact congrArg (List.cons _) ih
  unfold Scan.endBlocks
  rw [h.inFlow, ht.inFlow]
  simp only [push, h.indents, h.column, hi, decide_true, List.takeWhile_cons, List.dropWhile_cons, hcons,
    if_true]
  rfl

/-! ## Words -/

theorem At.gapAfter {ch : Char} (h : At s keyAllowed column indents before (ch :: rest)) :
    s.cursor.gapAfter 1 = rest.head?.all isGap := Cursor.gapAfter_one h.rest

theorem atMarker_of_pos {c : Cursor} (h : 0 < c.column) (a : Char) : c.atMarker a = false := by
  have hne : (c.column == 0) = false := by
    simp
    omega
  simp [Cursor.atMarker, hne]

theorem At.atMarker {a ch : Char} (h : At s keyAllowed column indents before (ch :: rest))
    (hch : column = 0 → ch ≠ a) : s.cursor.atMarker a = false := by
  rcases Nat.eq_zero_or_pos column with h0 | hpos
  · simp [Cursor.atMarker, h.rest, hch h0]
  · exact atMarker_of_pos (by rw [h.column]; exact hpos) a

theorem isIndicator_of_not_leading {ch : Char} (hlead : isLeadingIndicator ch = false)
    (hch : ¬(ch = '?' ∨ ch = ':' ∨ ch = '-')) : isIndicator ch = false := by
  simp [isLeadingIndicator] at hlead
  simp [isIndicator]
  tauto

/-- What stands after a character that would be an indicator before white space. -/
theorem At.no_gapAfter {ch : Char} (h : At s keyAllowed column indents before (ch :: rest))
    (hfirst : isIndicatorFirst ch rest.head? = false) (hch : ch = '?' ∨ ch = ':' ∨ ch = '-') :
    s.cursor.gapAfter 1 = false ∧ s.cursor.peek2.any isBlank = false := by
  have hend : isGapOrEnd rest.head? = false := by
    rw [isIndicatorFirst, Bool.or_eq_false_iff] at hfirst
    rcases hch with rfl | rfl | rfl <;> simpa using hfirst.2
  rw [h.gapAfter, Cursor.peek2_eq h.rest]
  cases rest with
  | nil => cases hend
  | cons b rest =>
    have hb := isGap_of_not_isGapOrEnd hend
    exact ⟨hb, (Bool.or_eq_false_iff.1 hb).1⟩

theorem At.startsPlain {ch : Char} (h : At s keyAllowed column indents before (ch :: rest))
    (hgap : isGap ch = false) (hfirst : isIndicatorFirst ch rest.head? = false) :
    s.startsPlain ch = true := by
  unfold Scan.startsPlain
  -- these three are indicators before white space only
  by_cases hch : ch = '?' ∨ ch = ':' ∨ ch = '-'
  · obtain ⟨hafter, hpeek⟩ := h.no_gapAfter hfirst hch
    rw [hafter, hpeek, h.inFlow]
    rcases hch with rfl | rfl | rfl <;> simp
  · have hblank : isBlank ch = false := (Bool.or_eq_false_iff.1 hgap).1
    simp [isIndicator_of_not_leading (Bool.or_eq_false_iff.1 hfirst).1 hch, hblank]

/-- A word that starts with no indicator is a plain scalar. -/
theorem At.word?_plain {ch : Char} (h : At s keyAllowed column indents before (ch :: rest))
    (hgap : isGap ch = false) (hmark : column = 0 → ch ≠ '-' ∧ ch ≠ '.')
    (hfirst : isIndicatorFirst ch rest.head? = false) : s.word? ch = s.plainScalar? := by
  have hne : ∀ a, isLeadingIndicator a = true → (ch == a) = false := fun a ha => by
    refine beq_eq_false_iff_ne.2 fun heq => ?_
    rw [isIndicatorFirst, heq, ha] at hfirst
    cases hfirst
  have hafter : ∀ a, a = '?' ∨ a = ':' ∨ a = '-' → (ch == a && s.cursor.gapAfter 1) = false :=
    fun a ha => by
      rw [Bool.and_eq_false_iff, beq_eq_false_iff_ne]
      by_cases hch : ch = a
      · exact .inr (h.no_gapAfter hfirst (hch ▸ ha)).1
      · exact .inl hch
  unfold word?
  simp only [h.atMarker fun h0 => (hmark h0).1, h.atMarker fun h0 => (hmark h0).2, hne '%' rfl,
    hne '[' rfl, hne '\x7b' rfl, hne ']' rfl, hne '\x7d' rfl, hne ',' rfl, hne '*' rfl, hne '&' rfl,
    hne '!' rfl, hne '|' rfl, hne '>' rfl, hne '\'' rfl, hne '"' rfl, h.inFlow, hafter '-' (by simp),
    hafter '?' (by simp), hafter ':' (by simp), h.startsPlain hgap hfirst, Bool.and_false, Bool.false_and,
    Bool.false_or, Bool.false_eq_true, if_false, if_true]

/-! ## Keys -/

/-- A key of a few letters. -/
def IsKey (key : String) : Prop :=
  key.toList.head?.any Char.isAlpha = true ∧ key.toList.all isNameChar = true ∧ key.toList.length ≤ 1024

instance (key : String) : Decidable (IsKey key) := inferInstanceAs (Decidable (_ ∧ _ ∧ _))

/-- The blocks that are open after a key, and the tokens with which it starts: the first key of a
block opens it. -/
inductive Opens (column : Nat) : List Nat → List Nat → List Token → Prop where
  | new {indents : List Nat} (h : indents.head?.all (· < column) = true) :
    Opens column indents (column :: indents) [.blockMap, .key]
  | same {indents : List Nat} : Opens column (column :: indents) (column :: indents) [.key]

theorem Opens.le {indents' : List Nat} {toks : List Token} (h : Opens column indents indents' toks) :
    indents.head?.all (· ≤ column) = true := by
  cases h with
  | new h =>
    cases indents with
    | nil => rfl
    | cons i indents =>
      have hi : i < column := by simpa using h
      simpa using Nat.le_of_lt hi
  | same => simp

theorem alpha_first {ch : Char} (h : ch.isAlpha = true) (next : Option Char) :
    ch ≠ '-' ∧ ch ≠ '.' ∧ isIndicatorFirst ch next = false := by
  have hdash : ch ≠ '-' := ne_of_kind h rfl
  have hquestion : ch ≠ '?' := ne_of_kind h rfl
  have hcolon : ch ≠ ':' := ne_of_kind h rfl
  refine ⟨hdash, ne_of_kind h rfl, ?_⟩
  simp [isIndicatorFirst, not_leading h rfl, hdash, hquestion, hcolon]

theorem alpha_passed {ch : Char} (h : ch.isAlpha = true) (hn : isNameChar ch = true) :
    isPassed ch = false := by
  have hname := name_apart hn
  have hbom : ch ≠ '\ufeff' := ne_of_kind h rfl
  simp [isPassed, hname, hbom]

theorem word?_colon (hcol : 0 < s.cursor.column) (hgap : s.cursor.gapAfter 1 = true) :
    s.word? ':' = s.colon? := by
  have hne : (s.cursor.column == 0) = false := by
    simp
    omega
  simp [word?, atMarker_of_pos hcol, hgap]

/-- The place where a key begins. -/
def keyHere (s : Scan) : PendingKey :=
  ⟨s.slots, s.indents.head? == some s.cursor.column, s.cursor.index, s.cursor.line, s.cursor.column⟩

/-- The state with a slot for a key. -/
def slotted (s : Scan) : Scan :=
  { s with
    pending := [some s.keyHere]
    slots := s.slots + 1
    entries := .slot s.slots :: s.entries }

theorem At.markKey? (h : At s true column indents before rest) : s.markKey? = some s.slotted := by
  rw [Scan.markKey?, if_pos h.keyAllowed, h.dropKey?]
  simp [h.inFlow, h.pending, slotted, keyHere]

/-- Where no key may start, none is marked. -/
theorem At.markKey?_none (h : At s false column indents before rest) : s.markKey? = some s := by
  rw [Scan.markKey?, if_neg (by simp [h.keyAllowed])]

theorem plainScalar?_eq {t : Scan} {text : List Char} {broken : Bool} {c : Cursor}
    (hmark : s.markKey? = some t)
    (hread : plain? t.inFlow (t.indents.head?.elim 0 (· + 1)) t.cursor = some (text, broken, c)) :
    s.plainScalar? =
      some { t.push (.scalar .plain (String.ofList text)) with cursor := c, keyAllowed := broken } := by
  unfold plainScalar?
  simp only [hmark, Option.bind_eq_bind, Option.bind_some, hread]

/-- The state after a word that may be a key. -/
def begun (s : Scan) (key : String) : Scan :=
  { s.slotted.push (.scalar .plain key) with
    cursor := s.cursor.skip key.toList.length
    keyAllowed := false }

/-- The word of a key is read as a scalar, with a slot before it. -/
theorem At.plainScalar?_key {key : String} (h : At s true column indents before (key.toList ++ ':' :: rest))
    (hne : key.toList ≠ []) (hk : ∀ a ∈ key.toList, isNameChar a = true)
    (hrest : rest.head?.all isGap = true) (hm : s.cursor.atDocumentMarker = false) :
    s.plainScalar? = some (s.begun key) := by
  have hread : plain? s.slotted.inFlow (s.slotted.indents.head?.elim 0 (· + 1)) s.slotted.cursor =
      some (key.toList, false, s.cursor.skip key.toList.length) := by
    rw [show s.slotted.inFlow = false from h.inFlow]
    exact plain?_key hne hk hrest h.rest hm
  rw [plainScalar?_eq h.markKey? hread, String.ofList_toList]
  rfl

/-- A key of some length is still on time at its colon. -/
theorem begun_waits {key : String} (hlen : key.toList.length ≤ 1024)
    (hs : s.cursor.rest = key.toList ++ ':' :: rest) : Waits (s.begun key) := by
  have hrest : (s.begun key).cursor.rest = spaces 0 ++ ':' :: rest := Cursor.skip_append_rest hs
  refine ⟨skipGaps_spaces _ hrest (.cons _ rfl), ?_⟩
  have hstale : isStale s.keyHere (s.begun key).cursor = false := by
    simp [isStale, keyHere, begun, Cursor.skip]
    omega
  have hpending : (s.begun key).pending = [some s.keyHere] := rfl
  rw [Scan.dropStale?, hpending]
  simp [hstale, Option.filter_some]
  rfl

/-- The state after the colon of a key. -/
def keyed (s : Scan) (key : String) : Scan :=
  { ((s.begun key).fillKey s.keyHere).push .value with cursor := (s.begun key).cursor.skip 1 }

theorem begun_colon? (key : String) : (s.begun key).colon? = some (s.keyed key) := rfl

theorem IsKey.eq_cons {key : String} (h : IsKey key) :
    ∃ ch tail, key.toList = ch :: tail ∧ ch.isAlpha = true ∧ isNameChar ch = true := by
  obtain ⟨hfirst, hnames, -⟩ := h
  cases hk : key.toList with
  | nil => simp [hk] at hfirst
  | cons ch tail =>
    rw [hk] at hfirst hnames
    exact ⟨ch, tail, rfl, hfirst, List.all_eq_true.1 hnames ch List.mem_cons_self⟩

section

variable {key : String} (h : At s true column indents before (key.toList ++ ':' :: rest))
include h

theorem At.begun_rest : (s.begun key).cursor.rest = ':' :: rest := Cursor.skip_append_rest h.rest

theorem At.begun_column : (s.begun key).cursor.column = column + key.toList.length := by
  rw [← h.column]
  rfl

/-- The letters of a key are read. -/
theorem At.leads_begun (hkey : IsKey key) (hrest : rest.head?.all isGap = true)
    (hin : indents.head?.all (· ≤ column) = true) : Leads s (s.begun key) := by
  obtain ⟨ch, tail, hcons, halpha, hname⟩ := hkey.eq_cons
  have hs : At s true column indents before (ch :: (tail ++ ':' :: rest)) := by
    rw [← List.cons_append, ← hcons]
    exact h
  obtain ⟨hdash, hdot, hind⟩ := alpha_first halpha (tail ++ ':' :: rest).head?
  have hmarker : s.cursor.atDocumentMarker = false := by
    rw [Cursor.atDocumentMarker, hs.atMarker fun _ => hdash, hs.atMarker fun _ => hdot]
    rfl
  have hword : s.word? ch = some (s.begun key) := by
    rw [hs.word?_plain (name_apart hname).1 (fun _ => ⟨hdash, hdot⟩) hind]
    exact h.plainScalar?_key (by simp [hcons]) (List.all_eq_true.1 hkey.2.1) hrest hmarker
  refine hs.word (alpha_passed halpha hname) hin hword ?_
  rw [h.begun_rest]
  simp

/-- The colon of a key is read. -/
theorem At.leads_keyed (hkey : IsKey key) (hrest : rest.head?.all isGap = true)
    (hin : indents.head?.all (· ≤ column) = true) : Leads (s.begun key) (s.keyed key) := by
  have hword : (s.begun key).word? ':' = some (s.keyed key) := by
    obtain ⟨ch, tail, hcons, -⟩ := hkey.eq_cons
    rw [word?_colon, begun_colon?]
    · rw [h.begun_column, hcons, List.length_cons]
      omega
    · rw [Cursor.gapAfter_one h.begun_rest]
      exact hrest
  have hblocks : (s.begun key).endBlocks (s.begun key).cursor.column = s.begun key := by
    refine endBlocks_eq h.inFlow ?_
    rw [h.begun_column, show (s.begun key).indents = indents from h.indents]
    cases indents with
    | nil => rfl
    | cons i indents =>
      have hle : i ≤ column := by simpa using hin
      simp
      omega
  refine (begun_waits hkey.2.2 h.rest).word hblocks (Cursor.peek_eq h.begun_rest) hword ?_
  simp [keyed, h.begun_rest]

/-- The slot of a key is filled, and its block is open. -/
theorem At.keyed {indents' : List Nat} {toks : List Token} (ho : Opens column indents indents' toks) :
    At (s.keyed key) false (column + key.toList.length + 1) indents'
      (before ++ (toks ++ [.scalar .plain key, .value])) rest := by
  have hdeeper : s.isDeeper s.cursor.column = indents.head?.all (· < column) := by
    rw [isDeeper, h.inFlow, h.indents, h.column]
    rfl
  refine ⟨rfl, ?_, ?_, ?_, ?_, h.flow, rfl, ?_⟩
  · rw [← h.begun_column]
    rfl
  · change (if s.isDeeper s.cursor.column then s.cursor.column :: s.indents else s.indents) = indents'
    rw [hdeeper, h.indents, h.column]
    cases ho with
    | new hnew => rw [if_pos hnew]
    | same => simp
  · -- the slot was the newest one, so filling it leaves the tokens before it as they were
    change List.foldl (expand (⟨s.slots, s.isDeeper s.cursor.column⟩ :: s.filled))
      (expand (⟨s.slots, s.isDeeper s.cursor.column⟩ :: s.filled) [.scalar .plain key, .value]
        (.slot s.slots)) s.entries = _
    rw [foldl_expand_fill h.slots, foldl_expand, hdeeper]
    have hbefore : s.entries.foldl (expand s.filled) [] = before := h.tokens
    rw [hbefore]
    cases ho with
    | new hnew => simp [expand, hnew]
    | same => simp [expand]
  · change ((s.begun key).cursor.skip 1).rest = rest
    rw [Cursor.skip_rest, h.begun_rest]
    rfl
  · intro n hn
    have hn : n = s.slots ∨ .slot n ∈ s.entries := by
      simpa [Scan.keyed, push, fillKey, begun, slotted] using hn
    rcases hn with rfl | hn
    · exact Nat.lt_succ_self _
    · exact Nat.lt_succ_of_lt (h.slots n hn)

end

/-- A key and its colon are read. -/
theorem At.key {key : String} {indents' : List Nat} {toks : List Token}
    (h : At s true column indents before (key.toList ++ ':' :: rest)) (hkey : IsKey key)
    (hrest : rest.head?.all isGap = true) (ho : Opens column indents indents' toks) :
    ∃ t, Leads s t ∧ At t false (column + key.toList.length + 1) indents'
      (before ++ (toks ++ [.scalar .plain key, .value])) rest :=
  ⟨_, (h.leads_begun hkey hrest ho.le).trans (h.leads_keyed hkey hrest ho.le), h.keyed ho⟩

end Scan

end LunchRush.Yaml
