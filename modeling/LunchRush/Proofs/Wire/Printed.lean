import LunchRush.Proofs.Number.Text
import LunchRush.Proofs.Yaml.Characters
import LunchRush.Proofs.Yaml.Lines
import LunchRush.Wire.Document
/-!
# Documents read as tokens

Whatever texts and floats a document holds, its text is read as the tokens of its fields
(`tokens?_toYaml`): however a text is written, its value is one scalar, of the style in which it is
written.
-/

namespace LunchRush

open Yaml Yaml.Scan

namespace Yaml

variable {c : Nat} {indents : List Nat}

/-! ## Values -/

/-- What stands between the value of a field and the next line. -/
def fieldEnd (value : List Char) : List Char :=
  if value.head? == some '|' && value.getLast?.any isBreak then [] else ['\n']

theorem fieldChars_eq (start key : String) (value : List Char) : fieldChars start key value =
    start.toList ++ (key.toList ++ ':' :: ' ' :: (value ++ fieldEnd value)) := by
  simp [fieldChars, fieldEnd]

theorem fieldEnd_eq {value : List Char} (h : value.head? ≠ some '|') : fieldEnd value = ['\n'] := by
  rw [fieldEnd, beq_eq_false_iff_ne.2 h]
  rfl

theorem Plain.head_ne_bar {cs : List Char} (h : Plain cs) : cs.head? ≠ some '|' := fun hbar => by
  obtain ⟨tail, htail⟩ := List.head?_eq_some_iff.1 hbar
  cases h.first _ _ htail

/-- However a text is written, it is read back. -/
theorem readsValue_scalar (s : String) : ReadsValue c indents
    (' ' :: (scalarChars (c + 2) s ++ fieldEnd (scalarChars (c + 2) s))) [.scalar (styleOf s) s] := by
  have hstyled := styled_styleOf s
  unfold scalarChars
  generalize styleOf s = style at hstyled
  cases hstyled with
  | plain h _ =>
    have hread : ReadsValue c indents _ _ := .plain h
    rw [String.ofList_toList] at hread
    rw [fieldEnd_eq h.head_ne_bar]
    exact hread
  | singleQuoted h =>
    have hbody : ReadsBody true (singleQuotedChars (c + 2) false s.toList) s.toList :=
      readsBody_single (by omega) h
    have hread : ReadsValue c indents _ _ := .quoted true hbody
    rw [String.ofList_toList] at hread
    rw [fieldEnd_eq (by simp)]
    exact hread
  | literal hne hs =>
    have hread : ReadsValue c indents _ _ := .literal hne hs.all
    rw [String.ofList_toList] at hread
    have hlast : (literalHeader s.toList ++ '\n' :: literalChars (c + 2) true s.toList).getLast? =
        s.toList.getLast? := by
      rw [List.getLast?_append_of_ne_nil _ (List.cons_ne_nil _ _),
        List.getLast?_cons_of_ne_nil (literalChars_ne_nil _ _ hne), literalChars_getLast? _ _ hne]
    have hend : fieldEnd (literalHeader s.toList ++ '\n' :: literalChars (c + 2) true s.toList) =
        lineEnd s.toList := by
      rw [fieldEnd, lineEnd, hlast]
      rfl
    -- the text's own last break is the one that ends its line
    rw [hend]
    exact hread
  | doubleQuoted =>
    have hread : ReadsValue c indents _ _ := .quoted false (readsBody_double s.toList)
    rw [String.ofList_toList] at hread
    rw [fieldEnd_eq (by simp)]
    exact hread

/-- Only a dash can be an indicator at the start of a number. -/
theorem isIndicatorFirst_numeral {a : Char} {next : Option Char} (h : Number.isNumeral a = true)
    (hnext : a = '-' → isGapOrEnd next = false) : isIndicatorFirst a next = false := by
  have hquestion : (a == '?') = false := beq_eq_false_iff_ne.2 (ne_of_kind h rfl)
  have hcolon : (a == ':') = false := beq_eq_false_iff_ne.2 (ne_of_kind h rfl)
  rw [isIndicatorFirst, not_leading h rfl, hquestion, hcolon]
  by_cases ha : a = '-'
  · simp [hnext ha]
  · simp [ha]

/-- A number is a plain text. -/
theorem plain_of_numerals {cs : List Char} (h : Number.Numerals cs) (hne : cs ≠ [])
    (hdash : cs ≠ ['-']) : Plain cs := by
  have hgap : ∀ a ∈ cs, isGap a = false := fun a ha => not_gap (h a ha) rfl
  have hspace : ' ' ∉ cs := fun hmem => ne_of_kind (h _ hmem) rfl rfl
  refine ⟨⟨hne, fun a ha hg => ?_, fun hhead => hspace (List.mem_of_head? hhead),
    fun hlast => hspace (List.mem_of_getLast? hlast), ?_⟩, ?_, fun hmark => ?_⟩
  · rw [hgap a ha] at hg
    cases hg
  · have hchain := isChain_of_inert fun a ha => ⟨hgap a ha, ne_of_kind (h a ha) rfl⟩
    cases cs with
    | nil => exact absurd rfl hne
    | cons a cs => exact .cons_cons ⟨nofun, fun _ => ne_of_kind (h a List.mem_cons_self) rfl⟩ hchain
  · rintro a rest rfl
    refine isIndicatorFirst_numeral (h a List.mem_cons_self) fun ha => ?_
    cases rest with
    | nil => exact absurd (by rw [ha]) hdash
    | cons b rest =>
      have hb := h b (by simp)
      have hnul : b ≠ '\x00' := ne_of_kind hb rfl
      have hgap : isGap b = false := not_gap hb rfl
      rw [isGap] at hgap
      simp [isGapOrEnd, hgap, hnul]
  · exact ne_of_kind (h _ (List.mem_of_head? hmark)) rfl rfl

/-- A float is read back as the scalar that was written. -/
theorem readsValue_float (x : Float) : ReadsValue c indents
    (' ' :: (floatChars x ++ fieldEnd (floatChars x))) [.scalar .plain (Number.Layout.yaml.show x)] := by
  have hread := Number.floatOfPlain?_show x
  have hne : floatChars x ≠ [] := fun hnil => by
    rw [String.toList_eq_nil_iff.1 hnil] at hread
    cases hread
  have hdash : floatChars x ≠ ['-'] := fun hdash => by
    rw [String.toList_inj.1 (show _ = "-".toList from hdash)] at hread
    cases hread
  have hplain : Plain (floatChars x) := plain_of_numerals (Number.show_numerals x) hne hdash
  have hvalue : ReadsValue c indents _ _ := .plain hplain
  rw [floatChars, String.ofList_toList] at hvalue
  rw [fieldEnd_eq hplain.head_ne_bar]
  exact hvalue

/-! ## Fields and lists -/

/-- A field of an open block, as it is written. -/
theorem readsLines_field (start key : String) {value : List Char} {toks : List Token}
    (hstart : start.toList = spaces c) (hkey : IsKey key)
    (hv : ReadsValue c indents (' ' :: (value ++ fieldEnd value)) toks) :
    ReadsLines c indents (fieldChars start key value) (fieldTokens key toks) := by
  rw [fieldChars_eq, hstart]
  exact .field hkey hv

/-- A list's item that is a block of fields, as it is written. -/
theorem readsLines_item (start key : String) {value more : List Char} {toks moreToks : List Token}
    (hstart : start.toList = spaces c ++ ['-', ' ']) (hkey : IsKey key)
    (hv : ReadsValue (c + 2) (c :: indents) (' ' :: (value ++ fieldEnd value)) toks)
    (hm : ReadsLines (c + 2) (c :: indents) more moreToks) :
    ReadsLines c indents (fieldChars start key value ++ more)
      (itemTokens (fieldTokens key toks ++ moreToks)) := by
  have hitem := ReadsLines.item hkey hv hm
  rw [fieldChars_eq, hstart]
  simpa using hitem

/-- What stands after the colon of a list's key. -/
def listValue {α : Type} (text : α → List Char) : List α → List Char
  | [] => " []\n".toList
  | items => '\n' :: items.flatMap text

/-- The tokens of a list, its items given by their fields. -/
def listTokens {α : Type} (toks : α → List Token) : List α → List Token
  | [] => [.openList, .closeList]
  | items => items.flatMap fun a => itemTokens (toks a)

theorem listChars_eq {α : Type} (start key : String) (text : α → List Char) (items : List α) :
    listChars start key text items = start.toList ++ (key.toList ++ ':' :: listValue text items) := by
  cases items <;> simp [listChars, listValue]

theorem readsValue_list {α : Type} {text : α → List Char} {toks : α → List Token}
    (h : ∀ a, ReadsLines c indents (text a) (itemTokens (toks a))) (items : List α) :
    ReadsValue c indents (listValue text items) (listTokens toks items) := by
  cases items with
  | nil => exact .brackets
  | cons a items => exact (ReadsLines.flatMap h (a :: items)).value

end Yaml

/-! ## Documents -/

/-- The tokens of a text. -/
def textTokens (s : String) : List Token := [.scalar (styleOf s) s]

/-- The tokens of a menu item's fields. -/
def MenuItem.yamlTokens (item : MenuItem) : List Token :=
  fieldTokens "item_id" (textTokens item.itemId.text) ++
    (fieldTokens "name" (textTokens item.name) ++
      (fieldTokens "description" (textTokens item.description) ++
        fieldTokens "price" [.scalar .plain (Number.Layout.yaml.show item.price)]))

/-- The tokens of a fixture's fields. -/
def Fixture.yamlTokens (f : Fixture) : List Token :=
  fieldTokens "restaurant_id" (textTokens f.restaurantId.text) ++
    fieldTokens "menus" (listTokens MenuItem.yamlTokens f.menus)

/-- The tokens of a document's fields. -/
def Document.yamlTokens (d : Document) : List Token :=
  fieldTokens "restaurants" (listTokens Fixture.yamlTokens d.restaurants)

theorem readsLines_menuItem (item : MenuItem) :
    ReadsLines 2 [0] item.yamlChars (itemTokens item.yamlTokens) := by
  have hmore : ReadsLines 4 [2, 0] _ _ :=
    (readsLines_field "    " "name" rfl (by decide) (readsValue_scalar item.name)).append <|
      (readsLines_field "    " "description" rfl (by decide) (readsValue_scalar item.description)).append
        (readsLines_field "    " "price" rfl (by decide) (readsValue_float item.price))
  have hitem : ReadsLines 2 [0] _ _ :=
    readsLines_item "  - " "item_id" rfl (by decide) (readsValue_scalar item.itemId.text) hmore
  rw [MenuItem.yamlChars, List.append_assoc, List.append_assoc]
  exact hitem

theorem readsLines_fixture (f : Fixture) : ReadsLines 0 [] f.yamlChars (itemTokens f.yamlTokens) := by
  have hmenus : ReadsLines 2 [0] _ _ :=
    .field (show IsKey "menus" by decide) (readsValue_list readsLines_menuItem f.menus)
  have hitem : ReadsLines 0 [] _ _ :=
    readsLines_item "- " "restaurant_id" rfl (by decide) (readsValue_scalar f.restaurantId.text) hmenus
  rw [Fixture.yamlChars, listChars_eq]
  exact hitem

/-! ## Characters -/

theorem allowed_literal {s : String} (h : s.toList.all isAllowed = true) : Allowed s.toList :=
  List.all_eq_true.1 h

theorem numeral_allowed {c : Char} (h : Number.isNumeral c = true) : isAllowed c = true := by
  have hrange : 0x20 ≤ c.toNat ∧ c.toNat ≤ 0x7e := by
    simp only [Number.isNumeral, Char.isAlphanum, Char.isAlpha, Char.isUpper, Char.isLower, Char.isDigit,
      Bool.or_eq_true, Bool.and_eq_true, decide_eq_true_eq, beq_iff_eq, ge_iff_le,
      UInt32.le_iff_toNat_le] at h
    rcases h with (((⟨hlow, hhigh⟩ | ⟨hlow, hhigh⟩) | ⟨hlow, hhigh⟩) | rfl) | rfl
    all_goals first | decide | exact ⟨le_trans (by decide) hlow, le_trans hhigh (by decide)⟩
  simp [isAllowed, hrange]

theorem floatChars_allowed (x : Float) : Allowed (floatChars x) :=
  fun c hc => numeral_allowed (Number.show_numerals x c hc)

theorem fieldChars_allowed (start key : String) {value : List Char}
    (hs : start.toList.all isAllowed = true) (hk : key.toList.all isAllowed = true)
    (hv : Allowed value) : Allowed (fieldChars start key value) := by
  refine (((allowed_literal hs).append (allowed_literal hk)).append (.cons rfl (.cons rfl hv))).append ?_
  split
  · exact .nil
  · exact .cons rfl .nil

theorem listChars_allowed {α : Type} (start key : String) {text : α → List Char}
    (hs : start.toList.all isAllowed = true) (hk : key.toList.all isAllowed = true)
    (h : ∀ a, Allowed (text a)) (items : List α) : Allowed (listChars start key text items) := by
  have hstart := (allowed_literal hs).append (allowed_literal hk)
  cases items with
  | nil => exact hstart.append (allowed_literal rfl)
  | cons a items =>
    refine (hstart.append (allowed_literal rfl)).append fun c hc => ?_
    obtain ⟨b, -, hb⟩ := List.mem_flatMap.1 hc
    exact h b c hb

theorem menuItem_allowed (item : MenuItem) : Allowed item.yamlChars :=
  (((fieldChars_allowed "  - " "item_id" rfl rfl (scalarChars_allowed 6 _)).append
    (fieldChars_allowed "    " "name" rfl rfl (scalarChars_allowed 6 _))).append
    (fieldChars_allowed "    " "description" rfl rfl (scalarChars_allowed 6 _))).append
    (fieldChars_allowed "    " "price" rfl rfl (floatChars_allowed _))

theorem fixture_allowed (f : Fixture) : Allowed f.yamlChars :=
  (fieldChars_allowed "- " "restaurant_id" rfl rfl (scalarChars_allowed 4 _)).append
    (listChars_allowed "  " "menus" rfl rfl menuItem_allowed _)

/-- The text of a document is read as the tokens of the document. -/
theorem tokens?_toYaml (d : Document) :
    tokens? d.toYaml = some (.blockMap :: (d.yamlTokens ++ [.blockEnd])) := by
  have hvalue : ReadsValue 0 [] _ _ := readsValue_list readsLines_fixture d.restaurants
  have hallowed := listChars_allowed "" "restaurants" rfl rfl fixture_allowed d.restaurants
  rw [listChars_eq] at hallowed
  rw [Document.toYaml, listChars_eq]
  exact tokens?_field (show IsKey "restaurants" by decide) hvalue (List.all_eq_true.2 hallowed)

end LunchRush
