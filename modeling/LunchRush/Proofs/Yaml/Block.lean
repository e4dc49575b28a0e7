import LunchRush.Proofs.Yaml.Printer
import LunchRush.Yaml.Block
/-!
# Literal blocks read back

A text that is written as a literal block is read back line by line (`block?_literal`): the
indentation goes, the line breaks stay, and what the header says about those at the end is undone.
-/

namespace LunchRush.Yaml

open LunchRush.Text (Stops exists_leading exists_trailing stretches)

/-- A line break that a reader keeps as it is. -/
def Kept (b : Char) : Prop := isBreak b = true ∧ b ≠ '\r' ∧ Cursor.breakChar b = b

theorem kept_of_shown {c : Char} (hs : isShown c = true) (hb : isBreak c = true) : Kept c := by
  rcases shown_gap hs (by rw [isGap, hb, Bool.or_true]) with rfl | rfl | rfl | rfl
  · cases hb
  all_goals exact ⟨rfl, by decide, rfl⟩

/-! ## Writing -/

theorem literalChars_word {indent : Nat} {word : List Char} (h : ∀ c ∈ word, isBreak c = false)
    (ys : List Char) : literalChars indent false (word ++ ys) = word ++ literalChars indent false ys := by
  induction word with
  | nil => rfl
  | cons c word ih =>
    rw [List.cons_append, literalChars, if_neg (by simp [h c List.mem_cons_self]),
      ih fun c' h' => h c' (List.mem_cons_of_mem _ h')]
    rfl

theorem literalChars_line {indent : Nat} {cs : List Char} (hne : cs ≠ []) (h : Stops isBreak cs) :
    literalChars indent true cs = spaces indent ++ literalChars indent false cs := by
  cases cs with
  | nil => exact absurd rfl hne
  | cons c cs =>
    have hc := h c rfl
    simp [literalChars, hc, spaces]

theorem literalChars_breaks (indent : Nat) {breaks : List Char} (h : ∀ b ∈ breaks, isBreak b = true)
    (ys : List Char) : literalChars indent true (breaks ++ ys) = breaks ++ literalChars indent true ys := by
  induction breaks with
  | nil => rfl
  | cons b breaks ih =>
    rw [List.cons_append, literalChars, if_pos (h b List.mem_cons_self),
      ih fun c hc => h c (List.mem_cons_of_mem _ hc)]
    rfl

/-- Line breaks at the end are written as they are. -/
theorem literalChars_append {indent : Nat} {breaks : List Char} (h : ∀ b ∈ breaks, isBreak b = true)
    (cs : List Char) (broken : Bool) :
    literalChars indent broken (cs ++ breaks) = literalChars indent broken cs ++ breaks := by
  induction cs generalizing broken with
  | nil =>
    cases breaks with
    | nil => rfl
    | cons b bs =>
      have hbs := literalChars_breaks indent (fun c hc => h c (List.mem_cons_of_mem _ hc)) []
      rw [List.append_nil, literalChars, List.append_nil] at hbs
      rw [List.nil_append, literalChars.eq_def]
      simp [h b List.mem_cons_self, hbs, literalChars]
  | cons c cs ih =>
    rw [List.cons_append, literalChars, literalChars]
    split
    · rw [ih, List.cons_append]
    · rw [ih, List.append_assoc, List.cons_append]

/-- A line, the breaks after it, and the next line with its indentation. -/
theorem literalChars_stretch {indent : Nat} {word core : List Char}
    (hw : ∀ a ∈ word, isBreak a = false) {g : Char} {gs : List Char} (hgap : ∀ a ∈ g :: gs, isBreak a = true)
    (hne : core ≠ []) (hs : Stops isBreak core) : literalChars indent false (word ++ (g :: gs ++ core)) =
      word ++ (g :: gs ++ (spaces indent ++ literalChars indent false core)) := by
  rw [literalChars_word hw, List.cons_append, literalChars, if_pos (hgap g List.mem_cons_self),
    literalChars_breaks indent fun a ha => hgap a (List.mem_cons_of_mem _ ha), literalChars_line hne hs]
  rfl

theorem literalChars_stops {indent : Nat} {cs : List Char} (h : Stops isBreak cs) (hne : cs ≠ [])
    (rest : List Char) : Stops isBreak (literalChars indent false cs ++ rest) := by
  cases cs with
  | nil => exact absurd rfl hne
  | cons c cs =>
    have hc := h c rfl
    rw [literalChars, if_neg (by simp [hc])]
    exact .cons _ hc

theorem length_le_literalChars (indent : Nat) (broken : Bool) (cs : List Char) :
    cs.length ≤ (literalChars indent broken cs).length := by
  induction cs generalizing broken with
  | nil => exact Nat.le_refl _
  | cons c cs ih =>
    have htrue := ih true
    have hfalse := ih false
    rw [literalChars]
    split
    · rw [List.length_cons, List.length_cons]
      omega
    · rw [List.length_append, List.length_cons, List.length_cons]
      omega

theorem literalChars_ne_nil (indent : Nat) (broken : Bool) {cs : List Char} (hne : cs ≠ []) :
    literalChars indent broken cs ≠ [] := by
  have hpos := List.length_pos_iff.2 hne
  have hlen := length_le_literalChars indent broken cs
  exact List.length_pos_iff.1 (by omega)

/-- A block ends as its text does. -/
theorem literalChars_getLast? (indent : Nat) (broken : Bool) {cs : List Char} (hne : cs ≠ []) :
    (literalChars indent broken cs).getLast? = cs.getLast? := by
  induction cs generalizing broken with
  | nil => exact absurd rfl hne
  | cons a cs ih =>
    rw [literalChars]
    cases cs with
    | nil => split <;> simp [literalChars]
    | cons b cs =>
      have hrest := fun later => literalChars_ne_nil indent later (List.cons_ne_nil b cs)
      split
      · rw [List.getLast?_cons_of_ne_nil (hrest _), ih _ (List.cons_ne_nil b cs), List.getLast?_cons_cons]
      · rw [List.getLast?_append_of_ne_nil _ (List.cons_ne_nil _ _), List.getLast?_cons_of_ne_nil (hrest _),
          ih _ (List.cons_ne_nil b cs), List.getLast?_cons_cons]

/-! ## The lines between two texts -/

theorem takeWhile_spaces {m limit : Nat} {rest : List Char} (hm : m ≤ limit)
    (hr : m < limit → Stops isBlank rest) :
    ((spaces m ++ rest).take limit).takeWhile (· == ' ') = spaces m := by
  rw [List.take_append, List.take_of_length_le (by simpa using hm),
    List.takeWhile_append_of_pos fun c hc => by simp [spaces_blank m c hc], spaces_length]
  rcases Nat.lt_or_eq_of_le hm with hlt | rfl
  · cases rest with
    | nil => simp
    | cons c rest =>
      have hc : (c == ' ') = false := by
        have := hr hlt c rfl
        simp [isBlank] at this
        simpa using this.1
      obtain ⟨k, hk⟩ : ∃ k, limit - m = k + 1 := ⟨limit - m - 1, by omega⟩
      simp [hk, hc]
  · simp

theorem ne_blank_of_isBreak {b : Char} (h : isBreak b = true) : (b == ' ') = false ∧ (b == '\t') = false := by
  have hblank := isBlank_of_isBreak h
  rwa [isBlank, Bool.or_eq_false_iff] at hblank

/-- An empty line is counted. -/
theorem blockBreaks?_break (indent fuel deepest : Nat) (breaks : List Char) {b : Char} {rest : List Char}
    {c : Cursor} (hc : c.rest = b :: rest) (hb : Kept b) :
    blockBreaks? (some indent) (fuel + 1) deepest breaks c =
      blockBreaks? (some indent) fuel (max deepest c.column) (breaks ++ [b]) c.skipBreak := by
  obtain ⟨hbreak, -, hkeep⟩ := hb
  obtain ⟨hspace, htab⟩ := ne_blank_of_isBreak hbreak
  have htaken : ((c.rest.take (indent - c.column)).takeWhile (· == ' ')) = [] := by
    rw [hc]
    cases indent - c.column with
    | zero => rfl
    | succ k => simp [hspace]
  rw [blockBreaks?]
  simp only [htaken, List.length_nil, Cursor.skip_zero, Cursor.peek_eq hc]
  simp [htab, hbreak, hkeep]

/-- The indentation of a line is taken as far as it is known. -/
theorem blockBreaks?_indentation (indent fuel deepest : Nat) {m : Nat} (breaks : List Char)
    {rest : List Char} {c : Cursor} (hc : c.rest = spaces m ++ rest) (hm : m ≤ indent)
    (hr : Stops isBreak rest) (hr' : m < indent → Stops isBlank rest) (hcol : c.column = 0) :
    blockBreaks? (some indent) (fuel + 1) deepest breaks c = some (max deepest m, breaks, c.skip m) := by
  have htaken : ((c.rest.take indent).takeWhile (· == ' ')) = spaces m := by
    rw [hc]
    exact takeWhile_spaces hm hr'
  have hafter : (c.skip (spaces m).length).rest = rest := Cursor.skip_append_rest hc
  have hpeek : (c.skip (spaces m).length).peek = rest.head? := by rw [Cursor.peek, hafter]
  have htab : (decide (m < indent) && rest.head? == some '\t') = false := by
    rw [Bool.and_eq_false_iff]
    rcases Nat.lt_or_ge m indent with hlt | hge
    · refine .inr (beq_eq_false_iff_ne.2 fun htab => ?_)
      cases hr' hlt '\t' htab
    · exact .inl (by simpa using hge)
  rw [spaces_length] at hpeek
  rw [blockBreaks?]
  simp only [hcol, Nat.sub_zero, htaken, hpeek, spaces_length, Cursor.skip_column, Nat.zero_add,
    Option.all_some, htab, Bool.false_eq_true, if_false]
  cases hch : rest.head? with
  | none => rfl
  | some ch => simp [hr ch hch]

/-- Empty lines are counted, and the indentation of the next line is taken as far as it is known. -/
theorem blockBreaks?_given (indent fuel deepest : Nat) {m : Nat} {bs : List Char} (breaks : List Char)
    {rest : List Char} {c : Cursor} (hc : c.rest = bs ++ (spaces m ++ rest)) (hb : ∀ b ∈ bs, Kept b)
    (hm : m ≤ indent) (hr : Stops isBreak rest) (hr' : m < indent → Stops isBlank rest)
    (hcol : c.column = 0) (hf : bs.length < fuel) :
    ∃ d c', blockBreaks? (some indent) fuel deepest breaks c = some (d, breaks ++ bs, c') ∧
      c'.rest = rest ∧ c'.column = m := by
  obtain ⟨fuel, rfl⟩ : ∃ k, fuel = k + 1 := ⟨fuel - 1, by omega⟩
  induction bs generalizing fuel deepest breaks c with
  | nil =>
    have hc : c.rest = spaces m ++ rest := hc
    refine ⟨max deepest m, c.skip m, ?_, ?_, by simp [hcol]⟩
    · rw [List.append_nil]
      exact blockBreaks?_indentation indent fuel deepest breaks hc hm hr hr' hcol
    · rw [← spaces_length m]
      exact Cursor.skip_append_rest hc
  | cons b bs ih =>
    obtain ⟨fuel, rfl⟩ : ∃ k, fuel = k + 1 := ⟨fuel - 1, by simp at hf; omega⟩
    have hb' := hb b List.mem_cons_self
    have hc : c.rest = b :: (bs ++ (spaces m ++ rest)) := hc
    have hskip := Cursor.skipBreak_eq hc hb'.2.1
    obtain ⟨d, c', hlater, hc'⟩ := ih (max deepest c.column) (breaks ++ [b]) (c := c.skipBreak)
      (by rw [hskip]) (fun a ha => hb a (List.mem_cons_of_mem _ ha)) (by rw [hskip]) fuel
      (by simpa using hf)
    refine ⟨d, c', ?_, hc'⟩
    rw [blockBreaks?_break indent (fuel + 1) deepest breaks hc hb', hlater, List.append_assoc]
    rfl

/-- The first line shows the indentation if it does not start with a space. -/
theorem blockBreaks?_shown {m fuel : Nat} {ch : Char} {rest : List Char} {c : Cursor}
    (hc : c.rest = spaces m ++ ch :: rest) (hch : isGap ch = false) (hcol : c.column = 0)
    (hf : 0 < fuel) : blockBreaks? none fuel 0 [] c = some (m, [], c.skip m) := by
  obtain ⟨fuel, rfl⟩ : ∃ k, fuel = k + 1 := ⟨fuel - 1, by omega⟩
  obtain ⟨hblank, hbreak⟩ := Bool.or_eq_false_iff.1 hch
  have htaken : ((c.rest.take c.rest.length).takeWhile (· == ' ')) = spaces m := by
    rw [hc]
    exact takeWhile_spaces (by simp) fun _ => .cons _ hblank
  have hafter : (c.skip (spaces m).length).rest = ch :: rest := Cursor.skip_append_rest hc
  have hpeek := Cursor.peek_eq hafter
  have htab : (ch == '\t') = false := by
    rw [isBlank, Bool.or_eq_false_iff] at hblank
    exact hblank.2
  unfold blockBreaks?
  simp only [htaken, hpeek]
  simp [htab, hbreak, hcol]

/-- The first line is found where its text starts, whether a header says where that is or not. -/
theorem blockBreaks?_open {outer : Nat} (digit : Bool) {lead tail : List Char}
    (hlead : ∀ b ∈ lead, Kept b) (ht : Stops isBreak tail)
    (hd : digit = false → lead = [] ∧ ∃ ch rest, tail = ch :: rest ∧ isGap ch = false) {c : Cursor}
    (hc : c.rest = lead ++ (spaces (outer + 2) ++ tail)) (hcol : c.column = 0) :
    ∃ d c', blockBreaks? ((if digit then some 2 else none).map (outer + ·)) (c.rest.length + 1) 0 [] c =
        some (d, lead, c') ∧ c'.rest = tail ∧ c'.column = outer + 2 ∧
      ((if digit then some 2 else none).map (outer + ·)).getD (max (max d (outer + 1)) 1) = outer + 2 := by
  cases digit with
  | true =>
    obtain ⟨d, c', hread, hrest, hcol'⟩ := blockBreaks?_given (outer + 2) (c.rest.length + 1) 0 [] hc
      hlead (Nat.le_refl _) ht (by omega) hcol (Cursor.length_lt hc)
    exact ⟨d, c', hread, hrest, hcol', rfl⟩
  | false =>
    obtain ⟨rfl, ch, rest, rfl, hch⟩ := hd rfl
    have hc : c.rest = spaces (outer + 2) ++ ch :: rest := hc
    refine ⟨outer + 2, c.skip (outer + 2), blockBreaks?_shown hc hch hcol (by omega), ?_, ?_, ?_⟩
    · simp [hc, spaces]
    · simp [hcol]
    · simp

/-! ## Lines -/

/-- A line, its end, and the empty lines after it. -/
theorem blockLines?_line {indent m : Nat} {word : List Char} {b : Char} {bs rest : List Char}
    (hw : ∀ a ∈ word, isBreak a = false) (hb : ∀ a ∈ b :: bs, Kept a) (hm : m ≤ indent)
    (hr : Stops isBreak rest) (hr' : m < indent → Stops isBlank rest) (fuel : Nat)
    (ended breaks : List Char) (blank : Bool) {c : Cursor}
    (hc : c.rest = word ++ (b :: bs ++ (spaces m ++ rest))) (hcol : c.column = indent) :
    ∃ (startsBlank : Bool) (c' : Cursor), c'.rest = rest ∧ c'.column = m ∧
      blockLines? true indent (fuel + 1) ended breaks blank c =
        (blockLines? true indent fuel [b] bs startsBlank c').map fun r =>
          (ended ++ breaks ++ word ++ r.1, r.2) := by
  obtain ⟨hbreak, hcr, hkeep⟩ := hb b List.mem_cons_self
  have htake := Cursor.takeWhile_eq (p := (!isBreak ·)) hc (fun a ha => by simp [hw a ha])
    (.cons _ (by simp [hbreak]))
  have hafter : (c.skip word.length).rest = b :: (bs ++ (spaces m ++ rest)) := Cursor.skip_append_rest hc
  have hskip := Cursor.skipBreak_eq hafter hcr
  have hrest' : (c.skip word.length).skipBreak.rest = bs ++ (spaces m ++ rest) := by rw [hskip]
  obtain ⟨d, c', hread, hrest, hcol'⟩ := blockBreaks?_given indent
    ((c.skip word.length).skipBreak.rest.length + 1) 0 [] hrest'
    (fun a ha => hb a (List.mem_cons_of_mem _ ha)) hm hr hr' (by rw [hskip]) (Cursor.length_lt hrest')
  refine ⟨c.peek.any isBlank, c', hrest, hcol', ?_⟩
  have hend : c.isEnd = false := by
    rw [Cursor.isEnd, hc]
    simp
  have hend' : (c.skip word.length).isEnd = false := by
    rw [Cursor.isEnd, hafter]
    rfl
  rw [blockLines?]
  simp only [htake, Cursor.peek_eq hafter, hend']
  simp [hcol, hend, hkeep, hread]

theorem stops_gap {rest : List Char} (h : Stops isGap rest) : Stops isBlank rest ∧ Stops isBreak rest :=
  ⟨fun a ha => (Bool.or_eq_false_iff.1 (h a ha)).1, fun a ha => (Bool.or_eq_false_iff.1 (h a ha)).2⟩

/-- The lines of a literal block are read up to a line that is indented less. -/
theorem blockLines?_lines {indent n : Nat} (hn : n < indent) {core : List Char} (hne : core ≠ [])
    (hstart : Stops isBreak core) (hend : ∀ c, core.getLast? = some c → isBreak c = false)
    (hcore : ∀ c ∈ core, isBreak c = true → Kept c) {b : Char} {bs : List Char}
    (hb : ∀ a ∈ b :: bs, Kept a) {rest : List Char} (hr : Stops isGap rest) (fuel : Nat)
    (ended breaks : List Char) (blank : Bool) {c : Cursor}
    (hc : c.rest = literalChars indent false core ++ (b :: bs ++ (spaces n ++ rest)))
    (hcol : c.column = indent) (hf : core.length < fuel) :
    ∃ c', blockLines? true indent fuel ended breaks blank c = some (ended ++ breaks ++ core, [b], bs, c') ∧
      c'.rest = rest ∧ c'.column = n := by
  obtain ⟨hblank, hbreak⟩ := stops_gap hr
  obtain ⟨fuel, rfl⟩ : ∃ k, fuel = k + 1 := ⟨fuel - 1, by omega⟩
  -- by the stretches of the text, each of which is one line with the breaks that end it
  induction core using stretches (p := isBreak) generalizing fuel ended breaks blank c with
  | last word hw =>
    rw [← List.append_nil word, literalChars_word hw, literalChars, List.append_nil] at hc
    obtain ⟨startsBlank, c', hrest, hcol', hread⟩ := blockLines?_line hw hb (Nat.le_of_lt hn) hbreak
      (fun _ => hblank) fuel ended breaks blank hc hcol
    have hstop : blockLines? true indent fuel [b] bs startsBlank c' = some ([], [b], bs, c') := by
      cases fuel with
      | zero => rfl
      | succ fuel =>
        rw [blockLines?, if_pos]
        simp
        omega
    refine ⟨c', ?_, hrest, hcol'⟩
    rw [hread, hstop]
    simp
  | gap word gap core hw hgap_ne hgap hcore_stops ih =>
    match gap, hgap_ne with
    | g :: gs, _ =>
      have hcore_ne : core ≠ [] := by
        rintro rfl
        have hlast := hgap _ (List.getLast_mem (List.cons_ne_nil g gs))
        rw [hend _ (by rw [List.append_nil, List.getLast?_append_of_ne_nil _ (List.cons_ne_nil g gs),
          List.getLast?_eq_some_getLast])] at hlast
        cases hlast
      have hkept : ∀ a ∈ g :: gs, Kept a := fun a ha =>
        hcore a (List.mem_append_right _ (List.mem_append_left _ ha)) (hgap a ha)
      rw [literalChars_stretch hw hgap hcore_ne hcore_stops] at hc
      have hc : c.rest = word ++ (g :: gs ++ (spaces indent ++ (literalChars indent false core ++
          (b :: bs ++ (spaces n ++ rest))))) := by simpa using hc
      obtain ⟨startsBlank, c', hrest, hcol', hread⟩ := blockLines?_line hw hkept (Nat.le_refl _)
        (literalChars_stops hcore_stops hcore_ne _) (by omega) fuel ended breaks blank hc hcol
      have hlen : core.length < fuel := by
        simp at hf
        omega
      obtain ⟨fuel, rfl⟩ : ∃ k, fuel = k + 1 := ⟨fuel - 1, by omega⟩
      obtain ⟨c'', hlater, hc''⟩ := ih hcore_ne hcore_stops
        (fun a ha => hend a (by rw [← List.append_assoc, List.getLast?_append_of_ne_nil _ hcore_ne, ha]))
        (fun a ha => hcore a (List.mem_append_right _ (List.mem_append_right _ ha))) [g] gs startsBlank
        hrest hcol' fuel hlen
      refine ⟨c'', ?_, hc''⟩
      rw [hread, hlater]
      simp

/-! ## Headers -/

/-- What a header says about the line breaks at the end. -/
inductive Says : List Char → Chomp → Prop where
  | strip : Says ['-'] .strip
  | clip : Says [] .clip
  | keep : Says ['+'] .keep

/-- What is kept of the last line's end and of the empty lines after it. -/
def Chomp.kept (chomp : Chomp) (ended last : List Char) : List Char :=
  match chomp with
  | .strip => []
  | .clip => ended
  | .keep => ended ++ last

theorem blockHeader?_eq {mark : List Char} {chomp : Chomp} (h : Says mark chomp) (digit : Bool)
    {tail : List Char} {c : Cursor}
    (hc : c.rest = (if digit then ['2'] else []) ++ (mark ++ '\n' :: tail)) :
    ∃ c', blockHeader? c = some (⟨chomp, if digit then some 2 else none⟩, c') ∧
      c'.rest = '\n' :: tail := by
  have hpeek : c.peek = c.rest.head? := rfl
  have hpeek2 : c.peek2 = (c.rest.drop 1).head? := rfl
  unfold blockHeader?
  rw [hpeek, hpeek2, hc]
  cases h <;> cases digit <;> exact ⟨_, rfl, by simp [hc]⟩

theorem endOfLine?_eq {tail : List Char} {c : Cursor} (hc : c.rest = '\n' :: tail) :
    endOfLine? c = some ⟨tail, c.index + 1, c.line + 1, 0⟩ := by
  have hskip : c.skipWhile isBlank = c := by
    have hnone := Cursor.skipWhile_eq (p := isBlank) ((List.nil_append _).trans hc.symm).symm nofun
      (.cons _ rfl)
    exact hnone
  have hpeek := Cursor.peek_eq hc
  have hbreak := Cursor.skipBreak_eq hc (by decide)
  simp [endOfLine?, hskip, hpeek, Cursor.atBreakOrEnd, Cursor.isEnd, hc, hbreak, isBreak]

/-- The line feed that is added where the text of a block does not end a line. -/
def lineEnd (cs : List Char) : List Char := if cs.getLast?.any isBreak then [] else ['\n']

theorem lineEnd_eq {cs : List Char} {b : Char} (h : b ∈ lineEnd cs) : b = '\n' := by
  unfold lineEnd at h
  split at h
  · cases h
  · simpa using h

/-- The header keeps of the line breaks at the end of a block what belongs to the text. -/
theorem chomping_says {cs : List Char} (hne : cs ≠ []) : ∃ chomp, Says (chomping cs) chomp ∧
    ((chomp = .keep ∧ ∀ c ∈ cs, isBreak c = true) ∨
      ∃ core b bs, core ≠ [] ∧ (∀ c, core.getLast? = some c → isBreak c = false) ∧
        (∀ c ∈ b :: bs, isBreak c = true) ∧ cs ++ lineEnd cs = core ++ b :: bs ∧
          core ++ chomp.kept [b] bs = cs) := by
  obtain ⟨before, last, rfl⟩ : ∃ before last, cs = before ++ [last] :=
    ⟨_, _, (List.dropLast_append_getLast hne).symm⟩
  have hrev : (before ++ [last]).reverse = last :: before.reverse := by simp
  have hhead : before.reverse.head? = before.getLast? := List.head?_reverse
  have hend : lineEnd (before ++ [last]) = if isBreak last then [] else ['\n'] := by simp [lineEnd]
  rw [chomping, hrev, hend]
  dsimp only
  rw [hhead]
  cases hlast : isBreak last with
  | false =>
    -- the line feed that is added belongs to the block, not to the text
    refine ⟨.strip, .strip, .inr ⟨before ++ [last], '\n', [], hne, ?_, by simp [isBreak], rfl, ?_⟩⟩
    · simpa using hlast
    · exact List.append_nil _
  | true =>
    cases hbefore : before.getLast?.all isBreak with
    | false =>
      refine ⟨.clip, .clip, .inr ⟨before, last, [], ?_, ?_, by simpa using hlast, by simp, rfl⟩⟩
      · rintro rfl
        cases hbefore
      · intro c hc
        simpa [hc] using hbefore
    | true =>
      -- more than one break at the end, or a text of breaks alone
      refine ⟨.keep, .keep, ?_⟩
      obtain ⟨core, ends, rfl, hends, hcore⟩ := exists_trailing isBreak before
      have hall : ∀ c ∈ ends ++ [last], isBreak c = true := by
        simpa [or_imp, forall_and, hlast] using hends
      rcases List.eq_nil_or_concat core with rfl | ⟨_, _, hcons⟩
      · exact .inl ⟨rfl, hall⟩
      · obtain ⟨b, bs, hb⟩ := List.exists_cons_of_ne_nil (List.append_ne_nil_of_right_ne_nil ends
          (List.cons_ne_nil last []))
        rw [hb] at hall
        refine .inr ⟨core, b, bs, by simp [hcons], hcore, hall, ?_, ?_⟩
        · rw [if_pos rfl, List.append_nil, List.append_assoc, hb]
        · rw [List.append_assoc, hb]
          rfl

/-- The lines from a cursor on hold a text, after a header that gives the indentation or does not;
they end where the next line starts. -/
def HoldsText (given : Option Nat) (outer : Nat) (chomp : Chomp) (c : Cursor) (cs rest : List Char)
    (n : Nat) : Prop :=
  ∃ deepest breaks c' text ended last c'',
    blockBreaks? given (c.rest.length + 1) 0 [] c = some (deepest, breaks, c') ∧
    blockLines? true (given.getD (max (max deepest (outer + 1)) 1)) (c'.rest.length + 1) [] breaks false c' =
      some (text, ended, last, c'') ∧
    text ++ chomp.kept ended last = cs ∧ c''.rest = rest ∧ c''.column = n

theorem HoldsText.block {outer n : Nat} {header : BlockHeader} {c c' c'' : Cursor} {cs rest : List Char}
    (hheader : blockHeader? (c.skip 1) = some (header, c')) (hline : endOfLine? c' = some c'')
    (h : HoldsText (header.indent.map (outer + ·)) outer header.chomp c'' cs rest n) :
    ∃ d, block? true (some outer) c = some (cs, d) ∧ d.rest = rest ∧ d.column = n := by
  obtain ⟨deepest, breaks, e, text, ended, last, d, hbreaks, hlines, rfl, hd⟩ := h
  refine ⟨d, ?_, hd⟩
  unfold block?
  simp only [hheader, hline, hbreaks, hlines, Option.bind_eq_bind, Option.bind_some, Option.getD_some,
    Option.elim_some]
  cases header.chomp <;> simp [Chomp.kept]

section

variable {outer n : Nat} {rest : List Char} {c : Cursor}

/-- A text of line breaks alone has no line, and all of it comes before the next one. -/
theorem holdsText_breaks {cs : List Char} (hcs : ∀ a ∈ cs, Kept a) (hn : n ≤ outer)
    (hr : Stops isGap rest) (hc : c.rest = cs ++ (spaces n ++ rest)) (hcol : c.column = 0) :
    HoldsText (some (outer + 2)) outer .keep c cs rest n := by
  obtain ⟨hblank, hbreak⟩ := stops_gap hr
  obtain ⟨d, c', hbreaks, hrest', hcol'⟩ := blockBreaks?_given (outer + 2) (c.rest.length + 1) 0 [] hc hcs
    (by omega) hbreak (fun _ => hblank) hcol (Cursor.length_lt hc)
  have hlines : blockLines? true (outer + 2) (c'.rest.length + 1) [] cs false c' = some ([], [], cs, c') := by
    rw [blockLines?, if_pos]
    simp
    omega
  exact ⟨d, cs, c', [], [], cs, c', hbreaks, hlines, rfl, hrest', hcol'⟩

/-- A text with lines: the breaks before them, the lines, and the breaks after them. -/
theorem holdsText_lines (digit : Bool) {lead core : List Char} {b : Char} {bs : List Char} (chomp : Chomp)
    (hkept : ∀ a ∈ lead ++ core ++ b :: bs, isBreak a = true → Kept a) (hlead : ∀ a ∈ lead, isBreak a = true)
    (hne : core ≠ []) (hstart : Stops isBreak core)
    (hend : ∀ a, core.getLast? = some a → isBreak a = false) (hbs : ∀ a ∈ b :: bs, isBreak a = true)
    (hd : digit = false → lead = [] ∧ Stops isGap core) (hn : n ≤ outer) (hr : Stops isGap rest)
    (hc : c.rest = lead ++ (spaces (outer + 2) ++ (literalChars (outer + 2) false core ++
      (b :: bs ++ (spaces n ++ rest))))) (hcol : c.column = 0) :
    HoldsText ((if digit then some 2 else none).map (outer + ·)) outer chomp c
      (lead ++ core ++ chomp.kept [b] bs) rest n := by
  have hshow : digit = false → lead = [] ∧ ∃ ch more, literalChars (outer + 2) false core ++
      (b :: bs ++ (spaces n ++ rest)) = ch :: more ∧ isGap ch = false := by
    intro hdigit
    obtain ⟨hlead_nil, hgap⟩ := hd hdigit
    cases core with
    | nil => exact absurd rfl hne
    | cons ch core =>
      exact ⟨hlead_nil, ch, _, by rw [literalChars, if_neg (by simp [hstart ch rfl])]; rfl, hgap ch rfl⟩
  obtain ⟨d, c', hbreaks, hrest', hcol', hindent⟩ := blockBreaks?_open digit
    (fun a ha => hkept a (by simp [ha]) (hlead a ha)) (literalChars_stops hstart hne _) hshow hc hcol
  have hlen := length_le_literalChars (outer + 2) false core
  have hlen' := Cursor.length_lt hrest'
  obtain ⟨c'', hlines, hrest'', hcol''⟩ := blockLines?_lines (by omega) hne hstart hend
    (fun a ha => hkept a (by simp [ha])) (fun a ha => hkept a (List.mem_append_right _ ha) (hbs a ha)) hr
    (c'.rest.length + 1) [] lead false hrest' hcol' (by omega)
  refine ⟨d, lead, c', lead ++ core, [b], bs, c'', hbreaks, ?_, rfl, hrest'', hcol''⟩
  rw [hindent, hlines]
  rfl

/-- A header gives the indentation of a text that starts with white space. -/
theorem stops_of_no_digit {cs core : List Char} (hs : ∀ a ∈ cs, isShown a = true)
    (hhead : cs.head? = core.head?) (hdigit : (cs.head?.any fun a => a == ' ' || isBreak a) = false) :
    Stops isGap core := by
  intro a ha
  have hmem : a ∈ cs := List.mem_of_head? (hhead.trans ha)
  rw [hhead, ha] at hdigit
  refine Bool.eq_false_iff.2 fun hg => ?_
  rcases shown_gap (hs a hmem) hg with rfl | rfl | rfl | rfl <;> simp [isBreak] at hdigit

/-- A text that is written as a literal block is read back, and the indentation of the next line is
passed over. -/
theorem block?_literal {cs : List Char} (hne : cs ≠ []) (hs : ∀ c ∈ cs, isShown c = true)
    (hn : n ≤ outer) (hr : Stops isGap rest) (hc : c.rest = literalHeader cs ++
      '\n' :: (literalChars (outer + 2) true cs ++ (lineEnd cs ++ (spaces n ++ rest)))) :
    ∃ c', block? true (some outer) c = some (cs, c') ∧ c'.rest = rest ∧ c'.column = n := by
  have hkept : ∀ a ∈ cs ++ lineEnd cs, isBreak a = true → Kept a := by
    intro a ha hbreak
    rcases List.mem_append.1 ha with ha | ha
    · exact kept_of_shown (hs a ha) hbreak
    · rw [lineEnd_eq ha]
      exact ⟨rfl, by decide, rfl⟩
  obtain ⟨chomp, hsays, hcases⟩ := chomping_says hne
  generalize hdigit : cs.head?.any (fun c => c == ' ' || isBreak c) = digit
  have hskip : (c.skip 1).rest = (if digit then ['2'] else []) ++ (chomping cs ++
      '\n' :: (literalChars (outer + 2) true cs ++ (lineEnd cs ++ (spaces n ++ rest)))) := by
    rw [Cursor.skip_rest, hc, literalHeader, hdigit]
    simp
  obtain ⟨c', hheader, hc'⟩ := blockHeader?_eq hsays digit hskip
  have hline := endOfLine?_eq hc'
  rcases hcases with ⟨rfl, hall⟩ | ⟨core, b, bs, hcore_ne, hcore_end, hbs, hsplit, hcs⟩
  · have hwritten := literalChars_breaks (outer + 2) hall []
    rw [List.append_nil, literalChars, List.append_nil] at hwritten
    have hend : lineEnd cs = [] := by
      simp [lineEnd, List.getLast?_eq_some_getLast hne, hall _ (List.getLast_mem hne)]
    obtain rfl : digit = true := by
      obtain ⟨a, more, rfl⟩ := List.exists_cons_of_ne_nil hne
      rw [← hdigit]
      simp [hall a List.mem_cons_self]
    refine HoldsText.block hheader hline (holdsText_breaks
      (fun a ha => hkept a (List.mem_append_left _ ha) (hall a ha)) hn hr ?_ rfl)
    rw [hwritten, hend, List.nil_append]
  · -- the breaks before the first word are read before the indentation is settled
    obtain ⟨lead, core, rfl, hlead, hstart⟩ := exists_leading isBreak core
    have hne' : core ≠ [] := by
      rintro rfl
      rw [List.append_nil] at hcore_ne hcore_end
      have hlast := hlead _ (List.getLast_mem hcore_ne)
      rw [hcore_end _ (List.getLast?_eq_some_getLast hcore_ne)] at hlast
      cases hlast
    have hwritten : literalChars (outer + 2) true cs ++ lineEnd cs =
        lead ++ (spaces (outer + 2) ++ (literalChars (outer + 2) false core ++ b :: bs)) := by
      rw [← literalChars_append fun a ha => by rw [lineEnd_eq ha]; rfl, hsplit,
        literalChars_append hbs, literalChars_breaks _ hlead, literalChars_line hne' hstart]
      simp
    have hhead : cs.head? = (lead ++ core).head? := by
      have hheads := congrArg List.head? hsplit
      rwa [List.head?_append_of_ne_nil _ hne, List.head?_append_of_ne_nil _ hcore_ne] at hheads
    have hd : digit = false → lead = [] ∧ Stops isGap core := by
      rintro rfl
      cases lead with
      | nil => exact ⟨rfl, stops_of_no_digit hs hhead hdigit⟩
      | cons a lead => simp [hhead, hlead a List.mem_cons_self] at hdigit
    have htext := holdsText_lines digit chomp (hsplit ▸ hkept) hlead hne' hstart
      (fun a ha => hcore_end a (by rw [List.getLast?_append_of_ne_nil _ hne', ha])) hbs hd hn hr
      (c := ⟨_, c'.index + 1, c'.line + 1, 0⟩) rfl rfl
    rw [hcs] at htext
    refine HoldsText.block hheader hline ?_
    have hsame : literalChars (outer + 2) true cs ++ (lineEnd cs ++ (spaces n ++ rest)) =
        lead ++ (spaces (outer + 2) ++ (literalChars (outer + 2) false core ++
          (b :: bs ++ (spaces n ++ rest)))) := by
      rw [← List.append_assoc, hwritten]
      simp
    rw [hsame]
    exact htext

end

end LunchRush.Yaml
