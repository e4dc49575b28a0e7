import LunchRush.Proofs.Yaml.Printer
import LunchRush.Yaml.Quoted
/-!
# Quoted scalars read back

A text between double quotes is read back whatever it holds (`readsBody_double`); a text between
single quotes is, if it can stand there (`readsBody_single`).
-/

namespace LunchRush.Yaml

open LunchRush.Text (Stops stretches)

/-! ## Escapes -/

theorem escapeChar?_letter {c letter : Char} (h : escapeLetter? c = some letter) :
    escapeWidth? letter = none ∧ escapeChar? letter = some c ∧ isBreak letter = false := by
  unfold escapeLetter? at h
  split at h <;> cases h <;> exact ⟨rfl, rfl, rfl⟩

theorem hexDigit?_upper {d : Nat} (h : d < 16) : hexDigit? (Nat.digitChar d).toUpper = some d := by
  revert d
  decide

theorem hexValue?_append (cs : List Char) (c : Char) :
    hexValue? (cs ++ [c]) = (hexValue? cs).bind fun n => (hexDigit? c).map (16 * n + ·) := by
  rw [hexValue?, List.foldl_append]
  change Option.bind (hexValue? cs) _ = _
  cases hexValue? cs with
  | none => rfl
  | some n => cases hexDigit? c <;> rfl

theorem hexValue?_zeros (k : Nat) (cs : List Char) :
    hexValue? (List.replicate k '0' ++ cs) = hexValue? cs := by
  induction k with
  | zero => rfl
  | succ k ih => exact ih

theorem hexValue?_digits (n : Nat) : hexValue? ((Text.hexDigits n).map Char.toUpper) = some n := by
  induction n using Nat.strongRecOn with
  | ind n ih =>
    unfold Text.hexDigits at ih ⊢
    rw [Nat.toDigits_eq_if (by decide)]
    split
    · rename_i h
      simp [hexValue?, hexDigit?_upper h]
    · rename_i h
      rw [List.map_append, List.map_singleton, hexValue?_append, ih _ (by omega),
        hexDigit?_upper (Nat.mod_lt _ (by decide))]
      simp
      omega

theorem hexValue?_field (width n : Nat) : hexValue? (hexField width n) = some n := by
  rw [hexField, hexValue?_zeros, hexValue?_digits]

theorem hexField_length {width n : Nat} (hw : 0 < width) (h : n < Nat.pow 16 width) :
    (hexField width n).length = width := by
  have hlen : (Text.hexDigits n).length ≤ width := (Nat.length_toDigits_le_iff (by decide) hw).2 h
  simp [hexField]
  omega

theorem codePoint?_toNat (c : Char) : codePoint? c.toNat = some c := by
  have hvalid : c.toNat < 0xd800 ∨ (0xdfff < c.toNat ∧ c.toNat < 0x110000) := c.valid
  rw [codePoint?, if_neg, Char.ofNat_toNat]
  simp
  omega

theorem escape?_field {c : Cursor} {letter ch : Char} {width : Nat} {tail : List Char}
    (hl : escapeWidth? letter = some width) (hw : 0 < width) (h : ch.toNat < Nat.pow 16 width)
    (hc : c.rest = letter :: (hexField width ch.toNat ++ tail)) :
    escape? c = some (ch, c.skip (1 + width)) := by
  have hlen := hexField_length hw h
  have htake : (c.rest.drop 1).take width = hexField width ch.toNat := by
    rw [hc, List.drop_one, List.tail_cons, List.take_left' hlen]
  unfold escape?
  rw [Cursor.peek_eq hc, Option.bind_eq_bind, Option.bind_some, hl]
  dsimp only
  rw [htake, if_pos hlen, hexValue?_field, Option.bind_eq_bind, Option.bind_some, codePoint?_toNat]
  rfl

theorem escape?_letter {c : Cursor} {letter ch : Char} {tail : List Char}
    (hl : escapeLetter? ch = some letter) (hc : c.rest = letter :: tail) :
    escape? c = some (ch, c.skip 1) := by
  obtain ⟨hwidth, hchar, -⟩ := escapeChar?_letter hl
  simp [escape?, Cursor.peek_eq hc, hwidth, hchar]

/-! ## Words -/

/-- The quote of a style. -/
def quoteOf (single : Bool) : Char := if single then '\'' else '"'

/-- Where a word between quotes ends: before a gap, or before the closing quote. -/
def EndsWord (single : Bool) (tail : List Char) : Prop :=
  (∃ ch rest, tail = ch :: rest ∧ isGap ch = true) ∨
    ∃ rest, tail = quoteOf single :: rest ∧ rest.head? ≠ some (quoteOf single)

/-- What is written for a character and read as that character. -/
def ReadsChar (single : Bool) (raw : List Char) (ch : Char) : Prop :=
  ∀ (fuel : Nat) (c c' : Cursor) (tail word : List Char), c.rest = raw ++ tail →
    quotedWord? single fuel (c.skip raw.length) = some (word, false, c') →
    quotedWord? single (fuel + 1) c = some (ch :: word, false, c')

/-- What is written for a word and read as that word. -/
def ReadsWord (single : Bool) (raw word : List Char) : Prop :=
  ∀ (fuel : Nat) (c : Cursor) (tail : List Char), c.rest = raw ++ tail → EndsWord single tail →
    raw.length < fuel → quotedWord? single fuel c = some (word, false, c.skip raw.length)

theorem ReadsWord.nil (single : Bool) : ReadsWord single [] [] := by
  intro fuel c tail hc ht hf
  obtain ⟨fuel, rfl⟩ : ∃ k, fuel = k + 1 := ⟨fuel - 1, by simp at hf; omega⟩
  rcases ht with ⟨ch, rest, rfl, hg⟩ | ⟨rest, rfl, hq⟩
  · have hg : (isBlank ch || isBreak ch) = true := hg
    simp [quotedWord?, hc, hg, Cursor.skip_zero]
  · have hg : (isBlank (quoteOf single) || isBreak (quoteOf single)) = false := by
      cases single <;> rfl
    cases single with
    | false => simp [quotedWord?, hc, quoteOf, Cursor.skip_zero]
    | true =>
      have hq : (rest.head? == some '\'') = false := by simpa [quoteOf] using hq
      simp only [quotedWord?, hc, hg, List.nil_append]
      simp [quoteOf, hq, Cursor.skip_zero]

/-- A word is read if each of its characters is. -/
theorem ReadsWord.flatMap {single : Bool} {encode : Char → List Char} (word : List Char)
    (hne : ∀ ch, encode ch ≠ []) (h : ∀ ch ∈ word, ReadsChar single (encode ch) ch) :
    ReadsWord single (word.flatMap encode) word := by
  induction word with
  | nil => exact .nil single
  | cons ch word ih =>
    intro fuel c tail hc ht hf
    obtain ⟨fuel, rfl⟩ : ∃ k, fuel = k + 1 := ⟨fuel - 1, by omega⟩
    have hpos : 0 < (encode ch).length := List.length_pos_iff.2 (hne ch)
    rw [List.flatMap_cons, List.append_assoc] at hc
    rw [List.flatMap_cons, List.length_append] at hf ⊢
    rw [← Cursor.skip_skip]
    refine h ch List.mem_cons_self fuel c _ _ word hc ?_
    exact ih (fun ch' h' => h ch' (List.mem_cons_of_mem _ h')) fuel _ tail
      (Cursor.skip_append_rest hc) ht (by omega)

theorem readsChar_of_plain {single : Bool} {ch : Char} (hg : isGap ch = false)
    (hq : ch ≠ quoteOf single) (he : single = false → ch ≠ '\\') : ReadsChar single [ch] ch := by
  intro fuel c c' tail word hc hlater
  have hg : (isBlank ch || isBreak ch) = false := hg
  cases single with
  | false =>
    have hq : ch ≠ '"' := hq
    have he : ch ≠ '\\' := he rfl
    simpa [quotedWord?, hc, hg, hq, he] using hlater
  | true =>
    have hq : ch ≠ '\'' := hq
    simpa [quotedWord?, hc, hg, hq] using hlater

theorem readsChar_escape {raw : List Char} {letter ch : Char} (hl : isBreak letter = false)
    (h : ∀ (c : Cursor) (tail : List Char), c.rest = letter :: (raw ++ tail) →
      escape? c = some (ch, c.skip (1 + raw.length))) :
    ReadsChar false ('\\' :: letter :: raw) ch := by
  intro fuel c c' tail word hc hlater
  have hc : c.rest = '\\' :: letter :: (raw ++ tail) := by simpa using hc
  have hescape := h (c.skip 1) tail (by simp [hc])
  rw [Cursor.skip_skip, show 1 + (1 + raw.length) = raw.length + 1 + 1 by omega] at hescape
  simp only [List.length_cons] at hlater
  simp [quotedWord?, hc, hescape, hlater, hl, show isBlank '\\' = false from rfl,
    show isBreak '\\' = false from rfl]

/-- Every character but a space is read back from what is written between double quotes. -/
theorem readsChar_escapedChar {ch : Char} (h : ch ≠ ' ') : ReadsChar false (escapedChar ch) ch := by
  unfold escapedChar
  split
  · rename_i letter hl
    exact readsChar_escape (escapeChar?_letter hl).2.2 fun c tail hc => escape?_letter hl hc
  · rename_i hl
    split
    · rename_i hs
      have hne : ∀ a, escapeLetter? a ≠ none → ch ≠ a := fun a ha hch => ha (hch ▸ hl)
      have hg : isGap ch = false := by
        simp only [isShown, Bool.and_eq_true, bne_iff_ne] at hs
        simp [isGap, isBlank, isBreak, h, hs, hne '\n' (by decide), hne '\u2028' (by decide),
          hne '\u2029' (by decide)]
      exact readsChar_of_plain hg (hne '"' (by decide)) fun _ => hne '\\' (by decide)
    · split
      · rename_i hn
        refine readsChar_escape rfl fun c tail hc => ?_
        rw [hexField_length (by decide) hn]
        exact escape?_field rfl (by decide) hn hc
      · split
        · rename_i hn
          refine readsChar_escape rfl fun c tail hc => ?_
          rw [hexField_length (by decide) hn]
          exact escape?_field rfl (by decide) hn hc
        · have hn : ch.toNat < Nat.pow 16 8 := by
            have hvalid : ch.toNat < 0xd800 ∨ (0xdfff < ch.toNat ∧ ch.toNat < 0x110000) := ch.valid
            change ch.toNat < 4294967296
            omega
          refine readsChar_escape rfl fun c tail hc => ?_
          rw [hexField_length (by decide) hn]
          exact escape?_field rfl (by decide) hn hc

/-! ## Bodies -/

/-- What is written for white space and read as that white space. -/
structure ReadsGap (raw gap : List Char) : Prop where
  starts : ∃ ch rest, raw = ch :: rest ∧ isGap ch = true
  read : ∀ (c : Cursor) (tail : List Char), c.rest = raw ++ tail → Stops isGap tail →
    ∃ (g : Gap) (c' : Cursor), Gap.read? 0 (c.rest.length + 1) Gap.none c = some (g, c') ∧
      g.text = gap ∧ c'.rest = tail ∧ 0 < c'.column

theorem readsGap_spaces {n : Nat} (h : 0 < n) : ReadsGap (spaces n) (spaces n) where
  starts := by
    obtain ⟨m, rfl⟩ : ∃ m, n = m + 1 := ⟨n - 1, by omega⟩
    exact ⟨' ', spaces m, rfl, rfl⟩
  read c tail hc ht := by
    have hlen : n ≤ c.rest.length + 1 := by
      simp [hc, spaces]
      omega
    refine ⟨_, _, Gap.read?_blanks 0 _ n [] hc ht hlen, rfl, ?_, ?_⟩
    · simp [hc, spaces]
    · simp
      omega

/-- Between single quotes the two separators stand for themselves, with the indentation after
them. -/
theorem readsGap_breaks {n : Nat} (hn : 0 < n) {breaks : List Char} (hne : breaks ≠ [])
    (h : ∀ b ∈ breaks, b = '\u2028' ∨ b = '\u2029') : ReadsGap (breaks ++ spaces n) breaks := by
  have hbreak : ∀ b ∈ breaks, isBreak b = true ∧ b ≠ '\r' ∧ Cursor.breakChar b = b := by
    intro b hb
    rcases h b hb with rfl | rfl <;> decide
  match breaks, hne with
  | b :: bs, _ =>
    refine ⟨⟨b, bs ++ spaces n, rfl, ?_⟩, fun c tail hc ht => ?_⟩
    · simp [isGap, (hbreak b List.mem_cons_self).1]
    · have hc' : c.rest = b :: bs ++ (spaces n ++ tail) := by simpa using hc
      have hlen : bs.length + n < c.rest.length + 1 := by
        simp [hc, spaces]
        omega
      obtain ⟨c', hread, hrest, hcol⟩ := Gap.read?_lines 0 (c.rest.length + 1) hc'
        (fun a ha => ⟨(hbreak a ha).1, (hbreak a ha).2.1⟩) ht hlen
      refine ⟨_, c', hread, ?_, hrest, hcol ▸ hn⟩
      have hmap : bs.map Cursor.breakChar = bs := by
        rw [List.map_congr_left (g := id) fun a ha => (hbreak a (List.mem_cons_of_mem _ ha)).2.2]
        exact List.map_id bs
      rw [hmap]
      rcases h b List.mem_cons_self with rfl | rfl <;> rfl

/-- What is written between quotes and read as a text: words with gaps between them. -/
inductive ReadsBody (single : Bool) : List Char → List Char → Prop where
  | last {raw word : List Char} : ReadsWord single raw word → ReadsBody single raw word
  | gap {rawWord word rawGap gap raw text : List Char} : ReadsWord single rawWord word →
      ReadsGap rawGap gap → Stops isGap raw → ReadsBody single raw text →
      ReadsBody single (rawWord ++ (rawGap ++ raw)) (word ++ (gap ++ text))

/-- A body is read up to its closing quote. -/
theorem ReadsBody.read_from {single : Bool} {raw text : List Char} (h : ReadsBody single raw text)
    {fuel : Nat} {c : Cursor} {tail : List Char} (hc : c.rest = raw ++ quoteOf single :: tail)
    (ht : tail.head? ≠ some (quoteOf single)) (hcol : 0 < c.column) (hf : raw.length < fuel) :
    ∃ c', quotedFrom? single fuel c = some (text, c') ∧ c'.rest = tail := by
  have hq : isGap (quoteOf single) = false := by cases single <;> rfl
  induction h generalizing fuel c with
  | last hword =>
    rename_i raw word
    obtain ⟨fuel, rfl⟩ : ∃ k, fuel = k + 1 := ⟨fuel - 1, by omega⟩
    have hread := hword (c.rest.length + 1) c _ hc (.inr ⟨tail, rfl, ht⟩) (Cursor.length_lt hc)
    have hafter := Cursor.skip_append_rest hc
    have hpeek := Cursor.peek_eq hafter
    have hend : c.isEnd = false := by simp [Cursor.isEnd, hc]
    refine ⟨(c.skip raw.length).skip 1, ?_, by simp only [Cursor.skip_rest _ 1, hafter]; rfl⟩
    unfold quotedFrom?
    rw [hread]
    simp [Cursor.not_atDocumentMarker hcol, hend, hpeek, quoteOf]
  | gap hword hgap hraw _ ih =>
    rename_i rawWord word rawGap gap raw text _
    obtain ⟨fuel, rfl⟩ : ∃ k, fuel = k + 1 := ⟨fuel - 1, by omega⟩
    have hc : c.rest = rawWord ++ (rawGap ++ (raw ++ quoteOf single :: tail)) := by simpa using hc
    obtain ⟨ch, rest, hch, hg⟩ := hgap.starts
    have hread := hword (c.rest.length + 1) c _ hc (.inl ⟨ch, _, by rw [hch]; rfl, hg⟩)
      (Cursor.length_lt hc)
    have hafter := Cursor.skip_append_rest hc
    have hpeek : (c.skip rawWord.length).peek = some ch := by
      rw [hch] at hafter
      exact Cursor.peek_eq hafter
    have hne : ch ≠ quoteOf single := fun heq => by simp [← heq, hg] at hq
    -- what follows the white space is a word or the closing quote
    have hstop : Stops isGap (raw ++ quoteOf single :: tail) := by
      cases raw with
      | nil => exact .cons _ hq
      | cons a raw => exact .cons _ (hraw a rfl)
    obtain ⟨g, c', hgread, hgtext, hrest, hcol'⟩ := hgap.read _ _ hafter hstop
    rw [Cursor.skip_rest, List.length_drop] at hgread
    have hlen : raw.length < fuel := by
      have hpos : 0 < rawGap.length := by simp [hch]
      simp at hf
      omega
    obtain ⟨c'', hlater, hrest'⟩ := ih hrest hcol' hlen
    have hend : c.isEnd = false := by simp [Cursor.isEnd, hc, hch]
    refine ⟨c'', ?_, hrest'⟩
    have hne : ch ≠ if single = true then '\'' else '"' := hne
    unfold quotedFrom?
    rw [hread]
    simp [Cursor.not_atDocumentMarker hcol, hend, hpeek, hne, hgread, hlater, hgtext]

/-- What is written between quotes is read from the opening quote on. -/
theorem ReadsBody.read {single : Bool} {raw text : List Char} (h : ReadsBody single raw text)
    {c : Cursor} {tail : List Char} (hc : c.rest = quoteOf single :: (raw ++ quoteOf single :: tail))
    (ht : tail.head? ≠ some (quoteOf single)) :
    ∃ c', quoted? single c = some (text, c') ∧ c'.rest = tail := by
  have hlen : raw.length < c.rest.length + 1 := by
    rw [hc, List.length_cons, List.length_append]
    omega
  exact h.read_from (by simp [hc]) ht (by simp) hlen

theorem spaces_flatMap (n : Nat) (encode : Char → List Char) (h : encode ' ' = [' ']) :
    (spaces n).flatMap encode = spaces n := by
  induction n with
  | zero => rfl
  | succ n ih =>
    have hcons : spaces (n + 1) = ' ' :: spaces n := rfl
    rw [hcons, List.flatMap_cons, ih, h]
    rfl

/-! ## Double quotes -/

theorem escapedChar_ne_nil (c : Char) : escapedChar c ≠ [] := by
  unfold escapedChar
  repeat' split
  all_goals exact List.cons_ne_nil _ _

theorem escapedChar_stops {c : Char} (h : c ≠ ' ') (rest : List Char) :
    Stops isGap (escapedChar c ++ rest) := by
  unfold escapedChar
  split
  · exact .cons _ rfl
  · rename_i hl
    split
    · rename_i hs
      refine .cons _ (Bool.eq_false_iff.2 fun hg => ?_)
      rcases shown_gap hs hg with rfl | rfl | rfl | rfl
      · exact h rfl
      all_goals cases hl
    · repeat' split
      all_goals exact .cons _ rfl

/-- Double quotes keep every text. -/
theorem readsBody_double (cs : List Char) : ReadsBody false (cs.flatMap escapedChar) cs := by
  have hword : ∀ word : List Char, (∀ c ∈ word, (c == ' ') = false) →
      ReadsWord false (word.flatMap escapedChar) word := fun word h =>
    .flatMap word escapedChar_ne_nil fun c hc => readsChar_escapedChar (by simpa using h c hc)
  -- spaces are the only white space that is written as it is
  induction cs using stretches (p := (· == ' ')) with
  | last word h => exact .last (hword word h)
  | gap word gap rest h hne hgap hrest ih =>
    obtain ⟨n, rfl⟩ : ∃ n, gap = spaces n :=
      ⟨gap.length, List.eq_replicate_of_mem fun c hc => by simpa using hgap c hc⟩
    have hpos : 0 < n := Nat.pos_of_ne_zero fun h0 => hne (by rw [h0]; rfl)
    rw [List.flatMap_append, List.flatMap_append, spaces_flatMap n escapedChar rfl]
    refine .gap (hword word h) (readsGap_spaces hpos) ?_ ih
    cases rest with
    | nil => exact .nil _
    | cons a rest => exact escapedChar_stops (by simpa using hrest a rfl) _

/-! ## Single quotes -/

/-- A character between single quotes. -/
def quoteTwice (c : Char) : List Char := if c == '\'' then ['\'', '\''] else [c]

theorem quoteTwice_ne_nil (c : Char) : quoteTwice c ≠ [] := by
  unfold quoteTwice
  split <;> exact List.cons_ne_nil _ _

theorem readsChar_quoteTwice {c : Char} (h : isGap c = false) : ReadsChar true (quoteTwice c) c := by
  unfold quoteTwice
  split
  · rename_i hq
    intro fuel cur c' tail word hc hlater
    rw [beq_iff_eq] at hq
    subst hq
    have hc : cur.rest = '\'' :: '\'' :: tail := hc
    have hlater : quotedWord? true fuel (cur.skip 2) = some (word, false, c') := hlater
    have hg : (isBlank '\'' || isBreak '\'') = false := h
    simp [quotedWord?, hc, hg, hlater]
  · rename_i hq
    exact readsChar_of_plain h (by simpa [quoteOf] using hq) nofun

theorem singleQuotedChars_append {indent : Nat} {xs : List Char} (h : ∀ c ∈ xs, isBreak c = false)
    (ys : List Char) : singleQuotedChars indent false (xs ++ ys) =
      xs.flatMap quoteTwice ++ singleQuotedChars indent false ys := by
  induction xs with
  | nil => rfl
  | cons c xs ih =>
    rw [List.cons_append, singleQuotedChars, if_neg (by simp [h c List.mem_cons_self]),
      ih fun c' h' => h c' (List.mem_cons_of_mem _ h')]
    simp [quoteTwice]

theorem singleQuotedChars_breaks {indent : Nat} {breaks : List Char} (hne : breaks ≠ [])
    (h : ∀ c ∈ breaks, isBreak c = true) {ys : List Char} (hy : Stops isBreak ys) (broken : Bool) :
    singleQuotedChars indent broken (breaks ++ ys) =
      breaks ++ (spaces indent ++ singleQuotedChars indent false ys) := by
  induction breaks generalizing broken with
  | nil => exact absurd rfl hne
  | cons b bs ih =>
    rw [List.cons_append, singleQuotedChars, if_pos (h b List.mem_cons_self)]
    cases bs with
    | cons b' bs =>
      rw [ih (List.cons_ne_nil _ _) fun c hc => h c (List.mem_cons_of_mem _ hc)]
      rfl
    | nil =>
      cases ys with
      | nil => simp [singleQuotedChars, spaces]
      | cons y ys => simp [singleQuotedChars, spaces, hy y rfl]

theorem singleQuotedChars_stops (indent : Nat) {cs : List Char} (h : Stops isGap cs) :
    Stops isGap (singleQuotedChars indent false cs) := by
  cases cs with
  | nil => exact .nil _
  | cons c cs =>
    have hc := h c rfl
    rw [singleQuotedChars, if_neg (by simp [(Bool.or_eq_false_iff.1 hc).2])]
    by_cases hq : (c == '\'') = true
    · rw [if_pos hq]
      exact .cons _ rfl
    · rw [if_neg hq]
      exact .cons _ hc

/-- Single quotes keep a text that can stand between them. -/
theorem readsBody_single {indent : Nat} (hi : 0 < indent) {cs : List Char} (h : Quotable cs) :
    ReadsBody true (singleQuotedChars indent false cs) cs := by
  have hword : ∀ word : List Char, (∀ c ∈ word, isGap c = false) →
      ReadsWord true (word.flatMap quoteTwice) word := fun word hw =>
    .flatMap word quoteTwice_ne_nil fun c hc => readsChar_quoteTwice (hw c hc)
  have hnobreak : ∀ word : List Char, (∀ c ∈ word, isGap c = false) →
      ∀ c ∈ word, isBreak c = false := fun word hw c hc => (Bool.or_eq_false_iff.1 (hw c hc)).2
  induction cs using stretches (p := isGap) with
  | last word hw =>
    rw [← List.append_nil word, singleQuotedChars_append (hnobreak word hw)]
    simpa [singleQuotedChars] using ReadsBody.last (hword word hw)
  | gap word gap rest hw hne hgap hrest ih =>
    have hafter := h.right_of_append
    have hlater := ih hafter.right_of_append
    have hstop := singleQuotedChars_stops indent hrest
    rw [singleQuotedChars_append (hnobreak word hw)]
    -- spaces stay on the line; separators are followed by the indentation
    rcases hafter.left_of_append.gap hgap with hspaces | hbreaks
    · obtain ⟨n, rfl⟩ : ∃ n, gap = spaces n := ⟨gap.length, List.eq_replicate_of_mem hspaces⟩
      have hpos : 0 < n := Nat.pos_of_ne_zero fun h0 => hne (by rw [h0]; rfl)
      rw [singleQuotedChars_append fun c hc => by rw [hspaces c hc]; rfl,
        spaces_flatMap n quoteTwice rfl]
      exact .gap (hword word hw) (readsGap_spaces hpos) hstop hlater
    · rw [singleQuotedChars_breaks hne (fun c hc => by rcases hbreaks c hc with rfl | rfl <;> rfl)
        (fun c hc => (Bool.or_eq_false_iff.1 (hrest c hc)).2), ← List.append_assoc gap]
      exact .gap (hword word hw) (readsGap_breaks hi hne hbreaks) hstop hlater

end LunchRush.Yaml
