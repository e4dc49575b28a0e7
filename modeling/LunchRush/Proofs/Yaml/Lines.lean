import LunchRush.Proofs.Yaml.Scan
/-!
# Fields and lists read as tokens

A block is read line by line. What a field or a list gives out does not depend on what stands around
it, as long as the next line is indented no deeper than the block (`ReadsValue`, `ReadsLines`).
-/

namespace LunchRush.Yaml

open LunchRush.Text (Stops)

/-- The tokens of a field. -/
def fieldTokens (key : String) (value : List Token) : List Token :=
  .key :: .scalar .plain key :: .value :: value

/-- The tokens of a list's item that is a block of fields. -/
def itemTokens (fields : List Token) : List Token := .dash :: .blockMap :: (fields ++ [.blockEnd])

namespace Scan

variable {s : Scan} {keyAllowed : Bool} {column c n : Nat} {indents : List Nat} {before : List Token}
  {rest : List Char}

/-! ## Values -/

/-- A token is given out, and the scanner stands somewhere else. -/
theorem At.push (h : At s keyAllowed column indents before rest) (t : Token) (cursor : Cursor)
    (allowed : Bool) : At { s.push t with cursor := cursor, keyAllowed := allowed } allowed cursor.column
      indents (before ++ [t]) cursor.rest :=
  ⟨rfl, rfl, h.indents, by rw [← h.tokens]; exact tokens_push s t, rfl, h.flow, h.pending,
    fun n hn => h.slots n (by simpa [Scan.push] using hn)⟩

/-- A dash that stands in the column of an open block opens none. -/
theorem At.dash (h : At s true column (column :: indents) before ('-' :: ' ' :: rest))
    (hr : Stops isPassed rest) :
    ∃ t, Leads s t ∧ At t true (column + 2) (column :: indents) (before ++ [.dash]) rest := by
  have hmark : s.cursor.atMarker '-' = false := by simp [Cursor.atMarker, h.rest]
  have hmark' : s.cursor.atMarker '.' = false := by simp [Cursor.atMarker, h.rest]
  have hopen : s.openBlock .blockList = s := by
    simp [openBlock, isDeeper, h.indents, h.column]
  have hword : s.word? '-' = some { s.push .dash with cursor := s.cursor.skip 1, keyAllowed := true } := by
    unfold word?
    simp only [hmark, hmark', h.gapAfter]
    simp [dash?, h.inFlow, h.keyAllowed, hopen, h.dropKey?, isGap, isBlank, pushChars]
  have hpush := h.push .dash (s.cursor.skip 1) true
  rw [Cursor.skip_rest, Cursor.skip_column, h.rest, h.column] at hpush
  obtain ⟨t, ht, hat⟩ := hpush.skip_blank hr
  refine ⟨t, (h.word rfl (by simp) hword ?_).trans ht, hat⟩
  simp [h.rest]

theorem head_le (h : c < column) : (c :: indents).head?.all (· ≤ column) = true := by
  simpa using Nat.le_of_lt h

theorem plain_stops {text : List Char} (h : Plain text) (rest : List Char) :
    Stops isPassed (text ++ rest) := by
  obtain ⟨ch, tail, rfl⟩ := List.exists_cons_of_ne_nil h.ne_nil
  have hgap : isGap ch = false := Bool.eq_false_iff.2 fun hg =>
    h.head (congrArg some (h.white ch List.mem_cons_self hg))
  have hfirst := h.first ch tail rfl
  have hsign : ch ≠ '#' := fun heq => by simp [heq, isIndicatorFirst, isLeadingIndicator] at hfirst
  have hbom : ch ≠ '\ufeff' := fun heq => h.mark (congrArg some heq)
  exact .cons _ (by simp [isPassed, hgap, hsign, hbom])

/-- A plain text is read as a value, up to the next line. -/
theorem At.plain {text : List Char} (ht : Plain text)
    (h : At s false column (c :: indents) before (text ++ '\n' :: (spaces n ++ rest))) (hc : c < column)
    (hn : n ≤ c) (hr : Stops isPassed rest) : ∃ t, Leads s t ∧
      At t true n (c :: indents) (before ++ [.scalar .plain (String.ofList text)]) rest := by
  obtain ⟨ch, tail, rfl⟩ := List.exists_cons_of_ne_nil ht.ne_nil
  obtain ⟨c', hread, hrest, hcol⟩ := plain?_text (c + 1) ht (stops_gap_of_passed hr) (by omega) h.rest
    (by rw [h.column]; omega)
  have hpassed : isPassed ch = false := plain_stops ht [] ch rfl
  have hgap : isGap ch = false := stops_gap_of_passed (plain_stops ht []) ch rfl
  have hfirst := ht.first ch tail rfl
  have hind : isIndicatorFirst ch (tail ++ '\n' :: (spaces n ++ rest)).head? = false := by
    cases tail with
    | nil => exact hfirst
    | cons b tail => exact hfirst
  have hplain : plain? s.inFlow (s.indents.head?.elim 0 (· + 1)) s.cursor = some (ch :: tail, true, c') := by
    rw [h.inFlow, h.indents]
    exact hread
  have hword : s.word? ch = _ :=
    (h.word?_plain hgap (by omega) hind).trans (plainScalar?_eq h.markKey?_none hplain)
  have hpush := h.push (.scalar .plain (String.ofList (ch :: tail))) c' true
  rw [hrest, hcol] at hpush
  refine ⟨_, h.word hpassed (head_le hc) hword ?_, hpush⟩
  simp [hrest]
  omega

theorem quotedScalar?_eq {t : Scan} {style : Style} {text : List Char} {cursor : Cursor}
    (hmark : s.markKey? = some t)
    (hread : quoted? (style == .singleQuoted) t.cursor = some (text, cursor)) :
    s.quotedScalar? style =
      some { t.push (.scalar style (String.ofList text)) with cursor := cursor, keyAllowed := false } := by
  unfold quotedScalar?
  simp only [hmark, Option.bind_eq_bind, Option.bind_some, hread]

/-- The style of a quoted text. -/
def quotedStyle (single : Bool) : Style := if single then .singleQuoted else .doubleQuoted

/-- A quoted text is read as a value, up to the next line. -/
theorem At.quoted (single : Bool) {raw text : List Char} (hb : ReadsBody single raw text)
    (h : At s false column (c :: indents) before
      (quoteOf single :: (raw ++ quoteOf single :: '\n' :: (spaces n ++ rest))))
    (hc : c < column) (hr : Stops isPassed rest) : ∃ t, Leads s t ∧ At t true n (c :: indents)
      (before ++ [.scalar (quotedStyle single) (String.ofList text)]) rest := by
  obtain ⟨c', hread, hrest⟩ := hb.read h.rest (by cases single <;> simp [quoteOf])
  have hmark := fun a => atMarker_of_pos (c := s.cursor) (by rw [h.column]; omega) a
  have hstyle : s.word? (quoteOf single) = s.quotedScalar? (quotedStyle single) := by
    cases single <;> simp [word?, quoteOf, quotedStyle, hmark]
  have hread : quoted? (quotedStyle single == .singleQuoted) s.cursor = some (text, c') := by
    cases single <;> exact hread
  have hword := hstyle.trans (quotedScalar?_eq h.markKey?_none hread)
  have hpush := h.push (.scalar (quotedStyle single) (String.ofList text)) c' false
  rw [hrest] at hpush
  -- a quoted text ends on its line, unlike a plain one, and the line break is still to come
  obtain ⟨t, ht, hat⟩ := hpush.skip_line hr
  have hpassed : isPassed (quoteOf single) = false := by cases single <;> rfl
  refine ⟨t, (h.word hpassed (head_le hc) hword ?_).trans ht, hat⟩
  simp [hrest]
  omega

/-- A literal block is read as a value, up to the next line. -/
theorem At.literal {cs : List Char} (hne : cs ≠ []) (hs : ∀ a ∈ cs, isShown a = true)
    (h : At s false column (c :: indents) before (literalHeader cs ++
      '\n' :: (literalChars (c + 2) true cs ++ (lineEnd cs ++ (spaces n ++ rest)))))
    (hc : c < column) (hn : n ≤ c) (hr : Stops isPassed rest) : ∃ t, Leads s t ∧
      At t true n (c :: indents) (before ++ [.scalar .literal (String.ofList cs)]) rest := by
  obtain ⟨c', hread, hrest, hcol⟩ := block?_literal hne hs hn (stops_gap_of_passed hr) h.rest
  have hmark := fun a => atMarker_of_pos (c := s.cursor) (by rw [h.column]; omega) a
  have hword : s.word? '|' = some { s.push (.scalar .literal (String.ofList cs)) with
      cursor := c', keyAllowed := true } := by
    simp [word?, hmark, h.inFlow, blockScalar?, h.dropKey?, h.indents, hread]
  have hpush := h.push (.scalar .literal (String.ofList cs)) c' true
  rw [hrest, hcol] at hpush
  have hbar : At s false column (c :: indents) before ('|' :: _) := h
  refine ⟨_, hbar.word rfl (head_le hc) hword ?_, hpush⟩
  simp [hrest]
  omega

/-- An empty list in brackets is read as a value, up to the next line. -/
theorem At.brackets
    (h : At s false column (c :: indents) before ('[' :: ']' :: '\n' :: (spaces n ++ rest)))
    (hc : c < column) (hr : Stops isPassed rest) : ∃ t, Leads s t ∧
      At t true n (c :: indents) (before ++ [.openList, .closeList]) rest := by
  have hmark := fun a => atMarker_of_pos (c := s.cursor) (by rw [h.column]; omega) a
  generalize ht : { s.push .openList with
    cursor := s.cursor.skip 1, flow := 1, pending := [none, none], keyAllowed := true } = t
  have hrest : t.cursor.rest = ']' :: '\n' :: (spaces n ++ rest) := by
    rw [← ht, Cursor.skip_rest, h.rest]
    rfl
  have hcol : t.cursor.column = column + 1 := by
    rw [← ht, Cursor.skip_column, h.column]
  have hopen : s.word? '[' = some t := by
    rw [← ht]
    simp [word?, hmark, openBracket?, h.markKey?_none, h.flow, h.pending, pushChars]
  have hwaits : Waits t := by
    refine ⟨skipGaps_spaces _ (n := 0) hrest (.cons _ rfl), ?_⟩
    rw [← ht]
    rfl
  have hblocks : t.endBlocks t.cursor.column = t := by
    rw [← ht]
    rfl
  have hclose : t.word? ']' = some { (s.push .openList).push .closeList with
      cursor := t.cursor.skip 1, keyAllowed := false } := by
    have hmark' := fun a => atMarker_of_pos (c := t.cursor) (by omega) a
    have hbracket : t.word? ']' = t.closeBracket? .closeList := by simp [word?, hmark']
    rw [hbracket, ← ht]
    simp [closeBracket?, Scan.dropKey?, Scan.inFlow, pushChars, Scan.push, h.flow, h.pending]
  have hpush := (h.push .openList s.cursor false).push .closeList (t.cursor.skip 1) false
  rw [Cursor.skip_rest, hrest] at hpush
  obtain ⟨u, hu, hat⟩ := hpush.skip_line hr
  have hfirst : Leads s t := h.word rfl (head_le hc) hopen (by simp [hrest])
  have hsecond := hwaits.word hblocks (Cursor.peek_eq hrest) hclose (by simp [hrest])
  exact ⟨u, hfirst.trans (hsecond.trans hu), by simpa using hat⟩

/-! ## Lines -/

/-- The next line is indented by `n` at most. -/
def Indented (n : Nat) (text : List Char) : Prop :=
  ∃ m rest, m ≤ n ∧ text = spaces m ++ rest ∧ Stops isPassed rest

/-- The scanner stands at the first word of a line. -/
def Line (s : Scan) (indents : List Nat) (before : List Token) (text : List Char) : Prop :=
  ∃ n rest, text = spaces n ++ rest ∧ Stops isPassed rest ∧ At s true n indents before rest

theorem spaces_append_inj {m n : Nat} {xs ys : List Char} (h : spaces m ++ xs = spaces n ++ ys)
    (hx : Stops isPassed xs) (hy : Stops isPassed ys) : m = n ∧ xs = ys := by
  induction m generalizing n with
  | zero =>
    cases n with
    | zero => exact ⟨rfl, h⟩
    | succ n => cases hx ' ' (congrArg List.head? h)
  | succ m ih =>
    cases n with
    | zero => cases hy ' ' (congrArg List.head? h.symm)
    | succ n =>
      obtain ⟨hmn, hxy⟩ := ih (List.tail_eq_of_cons_eq h)
      exact ⟨congrArg (· + 1) hmn, hxy⟩

theorem Line.at (h : Line s indents before (spaces n ++ rest)) (hr : Stops isPassed rest) :
    At s true n indents before rest := by
  obtain ⟨m, tail, htext, ht, hat⟩ := h
  obtain ⟨rfl, rfl⟩ := spaces_append_inj htext hr ht
  exact hat

theorem Indented.mono {m : Nat} {text : List Char} (h : Indented m text) (hmn : m ≤ n) : Indented n text := by
  obtain ⟨k, rest, hk, htext, hr⟩ := h
  exact ⟨k, rest, Nat.le_trans hk hmn, htext, hr⟩

theorem indented_self (hr : Stops isPassed rest) : Indented n (spaces n ++ rest) :=
  ⟨n, rest, Nat.le_refl n, rfl, hr⟩

/-- What follows the colon of a key in the block at column `c` is read as some tokens, up to the next
line. -/
structure ReadsValue (c : Nat) (indents : List Nat) (text : List Char) (toks : List Token) : Prop where
  starts : ∃ ch tail, text = ch :: tail ∧ isGap ch = true
  read : ∀ {s : Scan} {column : Nat} {before : List Token} {rest : List Char},
    At s false column (c :: indents) before (text ++ rest) → c ≤ column → Indented c rest →
      ∃ t, Leads s t ∧ Line t (c :: indents) (before ++ toks) rest

/-- Lines of the block at column `c` are read as some tokens. -/
structure ReadsLines (c : Nat) (indents : List Nat) (text : List Char) (toks : List Token) : Prop where
  indented : ∀ {rest : List Char}, Indented c rest → Indented c (text ++ rest)
  read : ∀ {s : Scan} {before : List Token} {rest : List Char},
    Line s (c :: indents) before (text ++ rest) → Indented c rest →
      ∃ t, Leads s t ∧ Line t (c :: indents) (before ++ toks) rest

theorem ReadsLines.nil (c : Nat) (indents : List Nat) : ReadsLines c indents [] [] where
  indented h := h
  read {s before rest} h _ := ⟨s, .refl s, by simpa using h⟩

theorem ReadsLines.append {text text' : List Char} {toks toks' : List Token}
    (h : ReadsLines c indents text toks) (h' : ReadsLines c indents text' toks') :
    ReadsLines c indents (text ++ text') (toks ++ toks') where
  indented {rest} hr := by
    rw [List.append_assoc]
    exact h.indented (h'.indented hr)
  read {s before rest} hs hr := by
    rw [List.append_assoc] at hs
    obtain ⟨t, hst, ht⟩ := h.read hs (h'.indented hr)
    obtain ⟨u, htu, hu⟩ := h'.read ht hr
    exact ⟨u, hst.trans htu, by rwa [List.append_assoc] at hu⟩

theorem ReadsLines.flatMap {α : Type} {text : α → List Char} {toks : α → List Token}
    (h : ∀ a, ReadsLines c indents (text a) (toks a)) (items : List α) :
    ReadsLines c indents (items.flatMap text) (items.flatMap toks) := by
  induction items with
  | nil => exact .nil c indents
  | cons a items ih => exact (h a).append ih

/-- The first character of a key is no white space. -/
theorem IsKey.stops {key : String} (h : IsKey key) (rest : List Char) :
    Stops isPassed (key.toList ++ rest) := by
  obtain ⟨ch, tail, hcons, halpha, hname⟩ := h.eq_cons
  rw [hcons]
  exact .cons _ (alpha_passed halpha hname)

/-- A plain text on the line of its key. -/
theorem ReadsValue.plain {text : List Char} (h : Plain text) :
    ReadsValue c indents (' ' :: (text ++ ['\n'])) [.scalar .plain (String.ofList text)] where
  starts := ⟨' ', _, rfl, rfl⟩
  read {s column before rest} hs hc hr := by
    obtain ⟨m, tail, hm, rfl, hstop⟩ := hr
    have hs : At s false column (c :: indents) before (' ' :: (text ++ '\n' :: (spaces m ++ tail))) := by
      simpa using hs
    obtain ⟨t, hst, ht⟩ := hs.skip_blank (plain_stops h _)
    obtain ⟨u, htu, hu⟩ := ht.plain h (by omega) hm hstop
    exact ⟨u, hst.trans htu, m, tail, rfl, hstop, hu⟩

/-- A text between quotes that starts on the line of its key. -/
theorem ReadsValue.quoted (single : Bool) {raw text : List Char} (h : ReadsBody single raw text) :
    ReadsValue c indents (' ' :: (quoteOf single :: raw ++ [quoteOf single] ++ ['\n']))
      [.scalar (quotedStyle single) (String.ofList text)] where
  starts := ⟨' ', _, rfl, rfl⟩
  read {s column before rest} hs hc hr := by
    obtain ⟨m, tail, hm, rfl, hstop⟩ := hr
    have hs : At s false column (c :: indents) before
        (' ' :: quoteOf single :: (raw ++ quoteOf single :: '\n' :: (spaces m ++ tail))) := by
      simpa using hs
    obtain ⟨t, hst, ht⟩ := hs.skip_blank (.cons _ (by cases single <;> rfl))
    obtain ⟨u, htu, hu⟩ := ht.quoted single h (by omega) hstop
    exact ⟨u, hst.trans htu, m, tail, rfl, hstop, hu⟩

/-- A literal block whose header stands on the line of its key. -/
theorem ReadsValue.literal {cs : List Char} (hne : cs ≠ []) (hs : ∀ a ∈ cs, isShown a = true) :
    ReadsValue c indents
      (' ' :: (literalHeader cs ++ '\n' :: literalChars (c + 2) true cs ++ lineEnd cs))
      [.scalar .literal (String.ofList cs)] where
  starts := ⟨' ', _, rfl, rfl⟩
  read {s column before rest} h hc hr := by
    obtain ⟨m, tail, hm, rfl, hstop⟩ := hr
    have h : At s false column (c :: indents) before (' ' :: (literalHeader cs ++
        '\n' :: (literalChars (c + 2) true cs ++ (lineEnd cs ++ (spaces m ++ tail))))) := by
      simpa using h
    obtain ⟨t, hst, ht⟩ := h.skip_blank (.cons _ rfl)
    obtain ⟨u, htu, hu⟩ := ht.literal hne hs (by omega) hm hstop
    exact ⟨u, hst.trans htu, m, tail, rfl, hstop, hu⟩

/-- An empty list on the line of its key. -/
theorem ReadsValue.brackets : ReadsValue c indents " []\n".toList [.openList, .closeList] where
  starts := ⟨' ', _, rfl, rfl⟩
  read {s column before rest} hs hc hr := by
    obtain ⟨m, tail, hm, rfl, hstop⟩ := hr
    have hs : At s false column (c :: indents) before
        (' ' :: '[' :: ']' :: '\n' :: (spaces m ++ tail)) := hs
    obtain ⟨t, hst, ht⟩ := hs.skip_blank (.cons _ rfl)
    obtain ⟨u, htu, hu⟩ := ht.brackets (by omega) hstop
    exact ⟨u, hst.trans htu, m, tail, rfl, hstop, hu⟩

/-- Lines below a key, in the column of the key. -/
theorem ReadsLines.value {text : List Char} {toks : List Token} (h : ReadsLines c indents text toks) :
    ReadsValue c indents ('\n' :: text) toks where
  starts := ⟨'\n', _, rfl, rfl⟩
  read {s column before rest} hs hc hr := by
    obtain ⟨m, tail, hm, htext, hstop⟩ := h.indented hr
    have hs' : At s false column (c :: indents) before ('\n' :: (spaces m ++ tail)) := by
      rw [← htext]
      exact hs
    obtain ⟨t, hst, ht⟩ := hs'.skip_line hstop
    obtain ⟨u, htu, hu⟩ := h.read ⟨m, tail, htext, hstop, ht⟩ hr
    exact ⟨u, hst.trans htu, hu⟩

/-- A field of an open block. -/
theorem ReadsLines.field {key : String} {value : List Char} {toks : List Token} (hkey : IsKey key)
    (hv : ReadsValue c indents value toks) :
    ReadsLines c indents (spaces c ++ (key.toList ++ ':' :: value)) (fieldTokens key toks) where
  indented {rest} _ := by
    rw [List.append_assoc, List.append_assoc]
    exact indented_self (hkey.stops _)
  read {s before rest} hs hr := by
    rw [List.append_assoc, List.append_assoc] at hs
    obtain ⟨ch, tail, rfl, hg⟩ := hv.starts
    have hgap : (ch :: tail ++ rest).head?.all isGap = true := by simp [hg]
    obtain ⟨t, hst, ht⟩ := (hs.at (hkey.stops _)).key hkey hgap .same
    obtain ⟨u, htu, hu⟩ := hv.read ht (by omega) hr
    exact ⟨u, hst.trans htu, by simpa [fieldTokens] using hu⟩

/-- An item of a list whose dashes stand in the column of the list's key: its first field opens a
block, and the further fields stand below the first. -/
theorem ReadsLines.item {key : String} {value more : List Char} {toks moreToks : List Token}
    (hkey : IsKey key) (hv : ReadsValue (c + 2) (c :: indents) value toks)
    (hm : ReadsLines (c + 2) (c :: indents) more moreToks) :
    ReadsLines c indents (spaces c ++ ('-' :: ' ' :: (key.toList ++ ':' :: value) ++ more))
      (itemTokens (fieldTokens key toks ++ moreToks)) where
  indented {rest} _ := by
    rw [List.append_assoc]
    exact indented_self (.cons _ rfl)
  read {s before rest} hs hr := by
    obtain ⟨ch, tail, rfl, hg⟩ := hv.starts
    have hs : Line s (c :: indents) before
        (spaces c ++ '-' :: ' ' :: (key.toList ++ ':' :: (ch :: tail ++ (more ++ rest)))) := by
      simpa using hs
    obtain ⟨t, hst, ht⟩ := (hs.at (.cons _ rfl)).dash (hkey.stops _)
    obtain ⟨u, htu, hu⟩ := ht.key hkey (by simp [hg]) (.new (by simp))
    obtain ⟨v, huv, hv⟩ := hv.read hu (by omega) (hm.indented (hr.mono (by omega)))
    obtain ⟨w, hvw, hw⟩ := hm.read hv (hr.mono (by omega))
    -- the next line stands to the left of the item, so the block of the item ends there
    obtain ⟨m, tail', hm, rfl, hstop⟩ := hr
    obtain ⟨x, hwx, hx⟩ := (hw.at hstop).end_block hstop (by omega)
    exact ⟨x, hst.trans (htu.trans (huv.trans (hvw.trans hwx))), m, tail', rfl, hstop,
      by simpa [itemTokens, fieldTokens] using hx⟩

/-! ## Documents -/

/-- At the end of a text the last block ends. -/
theorem At.run?_end (h : At s keyAllowed column [0] before []) (fuel : Nat) :
    (run? (fuel + 1) s).map Scan.tokens = some (before ++ [.blockEnd]) := by
  have hin : ([0] : List Nat).head?.all (· ≤ column) = true := by simp
  have hblocks := endBlocks_eq h.inFlow (by rw [h.indents, h.column]; exact hin)
  have hpeek : s.cursor.peek = none := by
    rw [Cursor.peek, h.rest]
    rfl
  have hall : s.endAllBlocks = { s.push .blockEnd with indents := [] } := by
    rw [endAllBlocks, h.inFlow, h.indents]
    rfl
  have hdrop : s.endAllBlocks.dropKey? = some s.endAllBlocks := by
    rw [hall, Scan.dropKey?]
    simp [Scan.push, h.pending]
  rw [(h.waits (.nil _)).run?, hblocks, afterGap, hpeek]
  dsimp only
  rw [hdrop, hall, ← h.tokens]
  exact congrArg some (tokens_push s .blockEnd)

/-- A text that is one field, whatever its value is, is read as one block. -/
theorem tokens?_field {key : String} {value : List Char} {toks : List Token} (hkey : IsKey key)
    (hv : ReadsValue 0 [] value toks) (ha : (key.toList ++ ':' :: value).all isAllowed = true) :
    tokens? (String.ofList (key.toList ++ ':' :: value)) =
      some (.blockMap :: (fieldTokens key toks ++ [.blockEnd])) := by
  generalize htext : key.toList ++ ':' :: value = text at ha
  have hstart : At (start (String.ofList text)) true 0 [] [] (key.toList ++ ':' :: value) :=
    ⟨rfl, rfl, rfl, rfl, by rw [htext]; exact String.toList_ofList, rfl, rfl, nofun⟩
  obtain ⟨ch, tail, hvalue, hg⟩ := hv.starts
  obtain ⟨t, hst, ht⟩ := hstart.key hkey (by simp [hvalue, hg]) (.new rfl)
  rw [← List.append_nil value] at ht
  obtain ⟨u, htu, n, rest, hnil, -, hu⟩ := hv.read ht (by omega) ⟨0, [], Nat.le_refl 0, rfl, .nil _⟩
  -- nothing is left, not even an indentation
  obtain ⟨rfl, rfl⟩ : n = 0 ∧ rest = [] := by
    cases n with
    | zero => exact ⟨rfl, hnil.symm⟩
    | succ n => cases hnil
  obtain ⟨k, hk, hrun⟩ := hst.trans htu
  have hlength : (start (String.ofList text)).cursor.rest.length = (String.ofList text).length := rfl
  have hlast := hu.run?_end ((String.ofList text).length + 1 - k)
  rw [← hrun] at hlast
  have hfuel : k + ((String.ofList text).length + 1 - k) + 1 = (String.ofList text).length + 2 := by omega
  rw [hfuel] at hlast
  rw [tokens?, String.toList_ofList, if_pos ha]
  refine hlast.trans ?_
  simp [fieldTokens]

end Scan

end LunchRush.Yaml
