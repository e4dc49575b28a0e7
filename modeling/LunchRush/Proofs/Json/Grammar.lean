import LunchRush.Proofs.Json.Reading
/-!
# The grammar of JSON text

White space may stand around every value, every name and every sign between them; characters of a text may
be escaped in any way, and so may halves of surrogate pairs; an exponent may have a sign and begin with
zeros. Whatever is spelled in this way is read as what it spells (`read?_of_says`).
-/

namespace LunchRush.Json

open LunchRush.Number
open LunchRush.Text (Stops)

/-! ## White space -/

/-- White space. -/
def Blank (cs : List Char) : Prop := ∀ c ∈ cs, Tree.isJsonSpace c = true

theorem skipSpace_blank {blank : List Char} (h : Blank blank) (cs : List Char) :
    Tree.skipSpace (blank ++ cs) = Tree.skipSpace cs := List.dropWhile_append_of_pos h

theorem skipSpace_cons {c : Char} (hc : Tree.isJsonSpace c = false) (cs : List Char) :
    Tree.skipSpace (c :: cs) = c :: cs := List.dropWhile_cons_of_neg (by rw [hc]; exact Bool.false_ne_true)

/-- White space ends a number. -/
theorem ends_append {blank : List Char} (h : Blank blank) {rest : List Char} (hr : Ends rest) :
    Ends (blank ++ rest) := by
  cases blank with
  | nil => exact hr
  | cons space blank =>
    have hspace := h space List.mem_cons_self
    refine .cons _ ?_
    simp only [Tree.isJsonSpace, Bool.or_eq_true, beq_iff_eq] at hspace
    rcases hspace with ((rfl | rfl) | rfl) | rfl <;> rfl

theorem value?_skip (fuel : Nat) (cs : List Char) :
    Tree.value? fuel (Tree.skipSpace cs) = Tree.value? fuel cs := by
  cases fuel with
  | zero => rfl
  | succ fuel =>
    have hskip : Tree.skipSpace (Tree.skipSpace cs) = Tree.skipSpace cs := List.dropWhile_idempotent _ _
    unfold Tree.value?
    rw [hskip]

theorem value?_blank {blank : List Char} (h : Blank blank) (fuel : Nat) (cs : List Char) :
    Tree.value? fuel (blank ++ cs) = Tree.value? fuel cs := by
  rw [← value?_skip, skipSpace_blank h, value?_skip]

theorem items?_skip (fuel : Nat) (cs : List Char) :
    Tree.items? fuel (Tree.skipSpace cs) = Tree.items? fuel cs := by
  cases fuel with
  | zero => rfl
  | succ fuel => rw [Tree.items?, value?_skip, Tree.items?]

theorem fields?_skip (fuel : Nat) (cs : List Char) :
    Tree.fields? fuel (Tree.skipSpace cs) = Tree.fields? fuel cs := by
  cases fuel with
  | zero => rfl
  | succ fuel =>
    have hskip : Tree.skipSpace (Tree.skipSpace cs) = Tree.skipSpace cs := List.dropWhile_idempotent _ _
    unfold Tree.fields?
    rw [hskip]

/-! ## Numbers -/

/-- An exponent, and what it is spelled as. -/
inductive SpellsExponent : Option Int → List Char → Prop
  | none : SpellsExponent none []
  | unsigned {mark : Char} {digits : List Char} : mark = 'e' ∨ mark = 'E' → Digits digits → digits ≠ [] →
      SpellsExponent (some (ofDigits digits)) (mark :: digits)
  | plus {mark : Char} {digits : List Char} : mark = 'e' ∨ mark = 'E' → Digits digits → digits ≠ [] →
      SpellsExponent (some (ofDigits digits)) (mark :: '+' :: digits)
  | minus {mark : Char} {digits : List Char} : mark = 'e' ∨ mark = 'E' → Digits digits → digits ≠ [] →
      SpellsExponent (some (-(ofDigits digits : Int))) (mark :: '-' :: digits)

/-- A numeral, and what it is spelled as. -/
inductive SpellsNumeral (n : Numeral) : List Char → Prop
  | parts {exponent : List Char} : n.Proper → SpellsExponent n.exponent exponent → SpellsNumeral n
      ((if n.negative then ['-'] else []) ++ (n.whole ++ (n.fractionChars ++ exponent)))

theorem takeExponent?_mark {mark : Char} (hm : mark = 'e' ∨ mark = 'E') (cs : List Char) :
    takeExponent? (mark :: cs) = takeExponent? ('e' :: cs) := by
  rcases hm with rfl | rfl <;> rfl

theorem takeExponent?_spells {e : Option Int} {exponent rest : List Char} (h : SpellsExponent e exponent)
    (hr : Ends rest) : takeExponent? (exponent ++ rest) = some (e.getD 0, rest) := by
  cases h with
  | none =>
    unfold takeExponent?
    rw [List.nil_append]
    split
    · exact absurd rfl (hr.head?_ne (c := 'e') rfl)
    · exact absurd rfl (hr.head?_ne (c := 'E') rfl)
    · rfl
  | @unsigned mark digits hm hd hne =>
    have htake := takeDigits_append hd hr.isDigit
    have hsign := takeSign_digits rest hd hne
    rw [List.cons_append, takeExponent?_mark hm]
    simp [takeExponent?, hsign, htake, hne]
  | @plus mark digits hm hd hne =>
    have htake := takeDigits_append hd hr.isDigit
    rw [List.cons_append, takeExponent?_mark hm]
    simp [takeExponent?, takeSign, htake, hne]
  | @minus mark digits hm hd hne =>
    have htake := takeDigits_append hd hr.isDigit
    rw [List.cons_append, takeExponent?_mark hm]
    simp [takeExponent?, takeSign, htake, hne]

/-- Whether there is an exponent is seen from the first character. -/
theorem marked_spells {e : Option Int} {exponent rest : List Char} (h : SpellsExponent e exponent)
    (hr : Ends rest) : (match exponent ++ rest with
      | 'e' :: _ | 'E' :: _ => true
      | _ => false) = e.isSome := by
  cases h with
  | none =>
    rw [List.nil_append]
    split
    · exact absurd rfl (hr.head?_ne (c := 'e') rfl)
    · exact absurd rfl (hr.head?_ne (c := 'E') rfl)
    · rfl
  | unsigned hm | plus hm | minus hm => rcases hm with rfl | rfl <;> rfl

theorem stops_spells {e : Option Int} {exponent rest : List Char} (h : SpellsExponent e exponent)
    (hr : Ends rest) :
    Stops Char.isDigit (exponent ++ rest) ∧ (exponent ++ rest).head? ≠ some '.' := by
  cases h with
  | none => exact ⟨hr.isDigit, hr.head?_ne rfl⟩
  | unsigned hm | plus hm | minus hm => rcases hm with rfl | rfl <;> exact ⟨.cons _ rfl, by simp⟩

theorem numeral?_spells {n : Numeral} {cs rest : List Char} (h : SpellsNumeral n cs) (hr : Ends rest) :
    Tree.numeral? (cs ++ rest) = some (n, rest) := by
  obtain ⟨hn, hexp⟩ := h
  obtain ⟨hstops, hpoint⟩ := stops_spells hexp hr
  simpa using numeral?_parts hn (takeExponent?_spells hexp hr) (marked_spells hexp hr) hstops hpoint

/-- A number begins with a digit or its sign. -/
theorem SpellsNumeral.head {n : Numeral} {cs : List Char} (h : SpellsNumeral n cs) :
    ∃ c rest, cs = c :: rest ∧ (c = '-' ∨ c.isDigit = true) := by
  obtain ⟨hn, -⟩ := h
  cases n.negative with
  | true => exact ⟨'-', _, rfl, .inl rfl⟩
  | false =>
    obtain ⟨c, digits, hw⟩ := List.exists_cons_of_ne_nil hn.some_digit
    rw [hw]
    exact ⟨c, _, rfl, .inr (hn.whole c (hw ▸ List.mem_cons_self))⟩

/-! ## Texts -/

/-- The units of a text, and what they are spelled as between the quotes. -/
inductive SpellsUnits : List Tree.Piece → List Char → Prop
  | nil : SpellsUnits [] []
  | plain {c : Char} {pieces : List Tree.Piece} {cs : List Char} : c ≠ '"' → c ≠ '\\' → 0x20 ≤ c.toNat →
      SpellsUnits pieces cs → SpellsUnits (.char c :: pieces) (c :: cs)
  | escape {e c : Char} {pieces : List Tree.Piece} {cs : List Char} : Tree.simpleEscape? e = some c →
      SpellsUnits pieces cs → SpellsUnits (.char c :: pieces) ('\\' :: e :: cs)
  | code {a b c d : Char} {n : Nat} {pieces : List Tree.Piece} {cs : List Char} :
      Tree.hexNumber? [a, b, c, d] = some n → SpellsUnits pieces cs →
      SpellsUnits (.unit n :: pieces) ('\\' :: 'u' :: a :: b :: c :: d :: cs)

/-- A text, and what it is spelled as between the quotes; it is none if half of a pair stands alone. -/
inductive SpellsText : Option String → List Char → Prop
  | units {pieces : List Tree.Piece} {cs : List Char} : SpellsUnits pieces cs →
      SpellsText ((Tree.joinPieces? pieces).map String.ofList) cs

theorem pieces?_spells {pieces : List Tree.Piece} {cs : List Char} (h : SpellsUnits pieces cs)
    (rest : List Char) : Tree.pieces? (cs ++ '"' :: rest) = some (pieces, rest) := by
  induction h with
  | nil => rfl
  | plain hquote hescape hc _ ih =>
    rw [List.cons_append, pieces?_plain hquote hescape (not_lt.2 hc), ih]
    rfl
  | @escape e c _ _ he _ ih =>
    have hu : e ≠ 'u' := by
      rintro rfl
      cases he
    rw [List.cons_append, List.cons_append, pieces?_simple hu he, ih]
    rfl
  | code hn _ ih =>
    simp only [List.cons_append]
    rw [pieces?_unit hn, ih]
    rfl

theorem quoted?_spells {s : Option String} {cs : List Char} (h : SpellsText s cs) (rest : List Char) :
    Tree.quoted? (cs ++ '"' :: rest) = some (s, rest) := by
  obtain ⟨hunits⟩ := h
  unfold Tree.quoted?
  rw [pieces?_spells hunits rest]
  rfl

/-- A character that may stand for itself. -/
def IsPlain (c : Char) : Prop := c ≠ '"' ∧ c ≠ '\\' ∧ 0x20 ≤ c.toNat

instance (c : Char) : Decidable (IsPlain c) := by unfold IsPlain; infer_instance

/-- A text of such characters is spelled as it is. -/
theorem spellsText_plain {s : String} (h : ∀ c ∈ s.toList, IsPlain c) : SpellsText (some s) s.toList := by
  have key : ∀ cs : List Char, (∀ c ∈ cs, IsPlain c) →
      SpellsUnits (cs.map .char) cs ∧ Tree.joinPieces? (cs.map .char) = some cs := by
    intro cs hcs
    induction cs with
    | nil => exact ⟨.nil, rfl⟩
    | cons c cs ih =>
      obtain ⟨⟨hquote, hescape, hc⟩, hcs⟩ := List.forall_mem_cons.1 hcs
      obtain ⟨hunits, hjoin⟩ := ih hcs
      refine ⟨.plain hquote hescape hc hunits, ?_⟩
      rw [List.map_cons, Tree.joinPieces?, hjoin]
      rfl
  obtain ⟨hunits, hjoin⟩ := key s.toList h
  have htext := SpellsText.units hunits
  rw [hjoin, Option.map_some, String.ofList_toList] at htext
  exact htext

/-! ## Values -/

/-- What is spelled: a value, or what stands between the brackets of a list or of a record. -/
inductive Part where
  | value (tree : Tree)
  | items (items : List Tree)
  | fields (fields : List (Option String × Tree))

/-- A part of JSON text, and what it is spelled as. A value has no white space around it; items and fields
have. -/
inductive Spells : Part → List Char → Prop
  | nothing : Spells (.value .null) "null".toList
  | yes : Spells (.value (.bool true)) "true".toList
  | no : Spells (.value (.bool false)) "false".toList
  | number {n : Numeral} {cs : List Char} : SpellsNumeral n cs → Spells (.value (.number n)) cs
  | text {s : Option String} {cs : List Char} : SpellsText s cs →
      Spells (.value (.text s)) ('"' :: (cs ++ ['"']))
  | emptyList {blank : List Char} : Blank blank → Spells (.value (.list [])) ('[' :: (blank ++ [']']))
  | list {items : List Tree} {cs : List Char} : Spells (.items items) cs →
      Spells (.value (.list items)) ('[' :: (cs ++ [']']))
  | emptyRecord {blank : List Char} : Blank blank →
      Spells (.value (.record [])) ('\x7b' :: (blank ++ ['\x7d']))
  | record {fields : List (Option String × Tree)} {cs : List Char} : Spells (.fields fields) cs →
      Spells (.value (.record fields)) ('\x7b' :: (cs ++ ['\x7d']))
  | lastItem {item : Tree} {before cs after : List Char} : Blank before → Spells (.value item) cs →
      Blank after → Spells (.items [item]) (before ++ (cs ++ after))
  | item {item : Tree} {items : List Tree} {before cs after more : List Char} : Blank before →
      Spells (.value item) cs → Blank after → Spells (.items items) more →
      Spells (.items (item :: items)) (before ++ (cs ++ (after ++ ',' :: more)))
  | lastField {key : Option String} {value : Tree} {before name gap start cs after : List Char} :
      Blank before → SpellsText key name → Blank gap → Blank start → Spells (.value value) cs → Blank after →
      Spells (.fields [(key, value)])
        (before ++ '"' :: (name ++ '"' :: (gap ++ ':' :: (start ++ (cs ++ after)))))
  | field {key : Option String} {value : Tree} {fields : List (Option String × Tree)}
      {before name gap start cs after more : List Char} :
      Blank before → SpellsText key name → Blank gap → Blank start → Spells (.value value) cs → Blank after →
      Spells (.fields fields) more → Spells (.fields ((key, value) :: fields))
        (before ++ '"' :: (name ++ '"' :: (gap ++ ':' :: (start ++ (cs ++ (after ++ ',' :: more))))))

/-- How the reader takes a part, whatever stands behind it. -/
def Part.ReadFrom : Part → List Char → Prop
  | .value tree, cs => ∀ fuel rest, cs.length ≤ fuel → Ends rest →
      Tree.value? fuel (cs ++ rest) = some (tree, rest)
  | .items trees, cs => ∀ fuel rest, cs.length < fuel →
      Tree.items? fuel (cs ++ ']' :: rest) = some (trees, rest)
  | .fields named, cs => ∀ fuel rest, cs.length < fuel →
      Tree.fields? fuel (cs ++ '\x7d' :: rest) = some (named, rest)

/-- What a part may begin with behind white space: no bracket is closed there. -/
def Part.Starts : Part → Char → Prop
  | .fields _, c => c = '"'
  | _, c => Tree.isJsonSpace c = false ∧ c ≠ ']'

theorem Blank.append {xs ys : List Char} (hx : Blank xs) (hy : Blank ys) : Blank (xs ++ ys) :=
  List.forall_mem_append.2 ⟨hx, hy⟩

theorem Spells.starts {part : Part} {cs : List Char} (h : Spells part cs) :
    ∃ blank c rest, Blank blank ∧ cs = blank ++ c :: rest ∧ part.Starts c := by
  have hvalue : ∀ {c rest} {tree : Tree}, Tree.isJsonSpace c = false → c ≠ ']' →
      ∃ blank d more, Blank blank ∧ c :: rest = blank ++ d :: more ∧ (Part.value tree).Starts d :=
    fun hspace hclose => ⟨[], _, _, nofun, rfl, hspace, hclose⟩
  induction h with
  | nothing | yes | no | text | emptyList | list | emptyRecord | record =>
    exact hvalue (by decide) (by decide)
  | number h =>
    obtain ⟨c, rest, rfl, hc⟩ := h.head
    have hne : ∀ d, d.isDigit = false → d ≠ '-' → c ≠ d := by
      rintro d hd hminus rfl
      exact hc.elim hminus fun hdigit => absurd (hd.symm.trans hdigit) (by decide)
    refine hvalue ?_ (hne _ (by decide) (by decide))
    simp [Tree.isJsonSpace, hne ' ' rfl (by decide), hne '\n' rfl (by decide), hne '\t' rfl (by decide),
      hne '\r' rfl (by decide)]
  | lastItem hbefore _ _ ih | item hbefore _ _ _ ih =>
    obtain ⟨blank, c, rest, hblank, rfl, hc⟩ := ih
    exact ⟨_, c, _, hbefore.append hblank, by rw [List.append_assoc, List.append_assoc]; rfl, hc⟩
  | lastField hbefore | field hbefore => exact ⟨_, _, _, hbefore, rfl, rfl⟩

theorem skipSpace_starts {part : Part} {cs : List Char} (h : Spells part cs) (rest : List Char) :
    ∃ c more, Tree.skipSpace (cs ++ rest) = c :: more ∧ part.Starts c := by
  obtain ⟨blank, c, more, hblank, rfl, hc⟩ := h.starts
  refine ⟨c, more ++ rest, ?_, hc⟩
  have hspace : Tree.isJsonSpace c = false := by
    cases part with
    | value | items => exact hc.1
    | fields => rw [show c = '"' from hc]; rfl
  rw [List.append_assoc, skipSpace_blank hblank, List.cons_append, skipSpace_cons hspace]

/-! ## How they are read -/

/-- A value has a character, so there is fuel left for what stands between its brackets. -/
theorem readFrom_value {tree : Tree} {c : Char} {cs : List Char}
    (h : ∀ fuel rest, cs.length ≤ fuel → Ends rest →
      Tree.value? (fuel + 1) (c :: (cs ++ rest)) = some (tree, rest)) :
    (Part.value tree).ReadFrom (c :: cs) := by
  intro fuel rest hfuel hr
  rw [List.length_cons] at hfuel
  obtain ⟨fuel, rfl⟩ : ∃ f, fuel = f + 1 := ⟨fuel - 1, by omega⟩
  exact h fuel rest (by omega) hr

theorem value?_bracket (fuel : Nat) (cs : List Char) : Tree.value? (fuel + 1) ('[' :: cs) =
    match Tree.skipSpace cs with
    | ']' :: rest => some (.list [], rest)
    | cs => (Tree.items? fuel cs).map fun (items, rest) => (.list items, rest) := rfl

theorem value?_brace (fuel : Nat) (cs : List Char) : Tree.value? (fuel + 1) ('\x7b' :: cs) =
    match Tree.skipSpace cs with
    | '\x7d' :: rest => some (.record [], rest)
    | cs => (Tree.fields? fuel cs).map fun (fields, rest) => (.record fields, rest) := rfl

/-- What is made of a field that was read, and of what stands behind its value. -/
def fieldsBehind? (fuel : Nat) (key : Option String) (value : Tree) (cs : List Char) :
    Option (List (Option String × Tree) × List Char) :=
  match Tree.skipSpace cs with
  | '\x7d' :: rest => some ([(key, value)], rest)
  | ',' :: cs => (Tree.fields? fuel cs).map fun (fields, rest) => ((key, value) :: fields, rest)
  | _ => none

/-- A name, the colon behind it and the value that follows are read. -/
theorem fields?_name {key : Option String} {value : Tree} {before name gap start cs rest : List Char}
    (hbefore : Blank before) (hname : SpellsText key name) (hgap : Blank gap) (hstart : Blank start)
    {fuel : Nat} (hvalue : Tree.value? fuel (cs ++ rest) = some (value, rest)) :
    Tree.fields? (fuel + 1) (before ++ '"' :: (name ++ '"' :: (gap ++ ':' :: (start ++ (cs ++ rest))))) =
      fieldsBehind? fuel key value rest := by
  have hread := quoted?_spells hname (gap ++ ':' :: (start ++ (cs ++ rest)))
  have hcolon : Tree.skipSpace (gap ++ ':' :: (start ++ (cs ++ rest))) = ':' :: (start ++ (cs ++ rest)) := by
    rw [skipSpace_blank hgap, skipSpace_cons rfl]
  rw [Tree.fields?, skipSpace_blank hbefore, skipSpace_cons rfl]
  simp only [hread, hcolon, value?_blank hstart, hvalue]
  rfl

/-- Whatever is spelled is read. -/
theorem readFrom_of_spells {part : Part} {cs : List Char} (h : Spells part cs) : part.ReadFrom cs := by
  -- the fuel is for the characters that are left, so what stands between brackets has enough of it
  induction h with
  | nothing | yes | no => exact readFrom_value fun _ _ _ _ => rfl
  | number h =>
    obtain ⟨c, cs, rfl, hc⟩ := h.head
    exact readFrom_value fun fuel rest _ hr => value?_of_numeral? hc (numeral?_spells h hr) fuel
  | text h =>
    refine readFrom_value fun fuel rest _ _ => ?_
    have hread := quoted?_spells h rest
    rw [List.append_assoc]
    change (Tree.quoted? _).map _ = _
    rw [List.cons_append, List.nil_append, hread]
    rfl
  | emptyList hblank =>
    refine readFrom_value fun fuel rest _ _ => ?_
    rw [value?_bracket, List.append_assoc, skipSpace_blank hblank]
    rfl
  | @list items cs h ih =>
    refine readFrom_value fun fuel rest hfuel _ => ?_
    have hread := ih fuel rest (by simpa using hfuel)
    rw [← items?_skip] at hread
    rw [value?_bracket, List.append_assoc, List.cons_append, List.nil_append]
    obtain ⟨c, more, hskip, -, hc⟩ := skipSpace_starts h (']' :: rest)
    rw [hskip] at hread ⊢
    split
    · rename_i heq
      exact absurd (List.cons.inj heq).1 hc
    · rw [hread]
      rfl
  | emptyRecord hblank =>
    refine readFrom_value fun fuel rest _ _ => ?_
    rw [value?_brace, List.append_assoc, skipSpace_blank hblank]
    rfl
  | @record fields cs h ih =>
    refine readFrom_value fun fuel rest hfuel _ => ?_
    have hread := ih fuel rest (by simpa using hfuel)
    rw [← fields?_skip] at hread
    rw [value?_brace, List.append_assoc, List.cons_append, List.nil_append]
    obtain ⟨c, more, hskip, rfl⟩ := skipSpace_starts h ('\x7d' :: rest)
    rw [hskip] at hread ⊢
    split
    · rename_i heq
      exact absurd (List.cons.inj heq).1 (by decide)
    · rw [hread]
      rfl
  | @lastItem item before cs after hbefore h hafter ih =>
    intro fuel rest hfuel
    obtain ⟨fuel, rfl⟩ : ∃ f, fuel = f + 1 := ⟨fuel - 1, by omega⟩
    simp only [List.length_append] at hfuel
    have hread := ih fuel (after ++ ']' :: rest) (by omega) (ends_append hafter (.cons _ rfl))
    rw [Tree.items?, List.append_assoc, List.append_assoc, value?_blank hbefore, hread]
    dsimp only
    rw [skipSpace_blank hafter, skipSpace_cons rfl]
    rfl
  | @item item items before cs after more hbefore h hafter hmore ih ihmore =>
    intro fuel rest hfuel
    obtain ⟨fuel, rfl⟩ : ∃ f, fuel = f + 1 := ⟨fuel - 1, by omega⟩
    simp only [List.length_append, List.length_cons] at hfuel
    have hread := ih fuel (after ++ ',' :: (more ++ ']' :: rest)) (by omega)
      (ends_append hafter (.cons _ rfl))
    simp only [List.append_assoc, List.cons_append]
    rw [Tree.items?, value?_blank hbefore, hread]
    dsimp only
    rw [skipSpace_blank hafter, skipSpace_cons rfl]
    change (Tree.items? fuel _).map _ = _
    rw [ihmore fuel rest (by omega)]
    rfl
  | @lastField key value before name gap start cs after hbefore hname hgap hstart h hafter ih =>
    intro fuel rest hfuel
    obtain ⟨fuel, rfl⟩ : ∃ f, fuel = f + 1 := ⟨fuel - 1, by omega⟩
    simp only [List.length_append, List.length_cons] at hfuel
    have hread := ih fuel (after ++ '\x7d' :: rest) (by omega) (ends_append hafter (.cons _ rfl))
    simp only [List.append_assoc, List.cons_append]
    rw [fields?_name hbefore hname hgap hstart hread, fieldsBehind?, skipSpace_blank hafter,
      skipSpace_cons rfl]
    rfl
  | @field key value fields before name gap start cs after more hbefore hname hgap hstart h hafter hmore ih
      ihmore =>
    intro fuel rest hfuel
    obtain ⟨fuel, rfl⟩ : ∃ f, fuel = f + 1 := ⟨fuel - 1, by omega⟩
    simp only [List.length_append, List.length_cons] at hfuel
    have hread := ih fuel (after ++ ',' :: (more ++ '\x7d' :: rest)) (by omega)
      (ends_append hafter (.cons _ rfl))
    simp only [List.append_assoc, List.cons_append]
    rw [fields?_name hbefore hname hgap hstart hread, fieldsBehind?, skipSpace_blank hafter,
      skipSpace_cons rfl]
    change (Tree.fields? fuel _).map _ = _
    rw [ihmore fuel rest (by omega)]
    rfl

/-! ## Whole texts -/

/-- A text that spells a tree, with white space before and behind it. -/
inductive Says : String → Tree → Prop
  | spelled {before cs after : List Char} {tree : Tree} : Blank before → Spells (.value tree) cs →
      Blank after → Says (String.ofList (before ++ (cs ++ after))) tree

/-- A text is read as what it spells. -/
theorem read?_of_says {s : String} {tree : Tree} (h : Says s tree) : Tree.read? s = some tree := by
  obtain @⟨before, cs, after, tree, hbefore, h, hafter⟩ := h
  have hread := readFrom_of_spells h ((before ++ (cs ++ after)).length + 1) (after ++ [])
    (by simp only [List.length_append]; omega) (ends_append hafter (.nil _))
  have hrest : Tree.skipSpace (after ++ []) = [] := skipSpace_blank hafter []
  rw [List.append_nil] at hread hrest
  unfold Tree.read?
  rw [String.toList_ofList]
  dsimp only
  rw [value?_blank hbefore, hread]
  dsimp only
  rw [hrest]
  rfl

end LunchRush.Json
