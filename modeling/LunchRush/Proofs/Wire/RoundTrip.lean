import LunchRush.Proofs.Wire.Printed
import LunchRush.Proofs.Yaml.Node
import LunchRush.Wire.Read
/-!
# Documents read back

The tokens of a document are read as records and lists, no node of which is an alias, and the forms
of these are the document's own fields again. So a document is what its text is read as
(`ofYaml?_toYaml`).
-/

namespace LunchRush

open Yaml Yaml.Reader

namespace Yaml

variable {anchors : List (Nat × Node)}

/-! ## Nodes -/

/-- The entries of a record, its fields given by their names. -/
def recordEntries (fields : List (String × Node)) : List (Node × Node) :=
  fields.map fun field => (keyNode field.1, field.2)

def recordNode (fields : List (String × Node)) : Node := .map none (recordEntries fields)

/-- The node of a list of records. -/
def listNode {α : Type} (fields : α → List (String × Node)) (items : List α) : Node :=
  .list none (items.map fun a => recordNode (fields a))

/-- The node of a text. -/
def textNode (s : String) : Node := .scalar none none (styleOf s) s

/-- The node of a float. -/
def floatNode (x : Float) : Node := .scalar none none .plain (Number.Layout.yaml.show x)

theorem readsNode_list {α : Type} {toks : α → List Token} {fields : α → List (String × Node)}
    (h : ∀ a, ReadsEntries (toks a) (recordEntries (fields a))) (items : List α) :
    ReadsNode (listTokens toks items) (listNode fields items) := by
  cases items with
  | nil => exact .brackets
  | cons a items => exact .list h (List.cons_ne_nil a items)

/-! ## Aliases -/

/-- No alias is among the nodes. -/
inductive Unaliased : Node → Prop
  | scalar {anchor : Option Nat} {tag : Option String} {style : Style} {text : String} :
      Unaliased (.scalar anchor tag style text)
  | list {anchor : Option Nat} {items : List Node} (h : ∀ item ∈ items, Unaliased item) :
      Unaliased (.list anchor items)
  | map {anchor : Option Nat} {entries : List (Node × Node)} (hk : ∀ entry ∈ entries, Unaliased entry.1)
      (hv : ∀ entry ∈ entries, Unaliased entry.2) : Unaliased (.map anchor entries)

namespace Unaliased

variable {n : Node}

theorem ownAlias (h : Unaliased n) : (View.mk anchors (some n)).ownAlias = 0 := by
  cases h <;> rfl

theorem itemsOf (h : Unaliased n) :
    ∀ v ∈ (View.mk anchors (some n)).itemsOf, ∃ m, v = ⟨anchors, some m⟩ ∧ Unaliased m := by
  cases h with
  | scalar => exact nofun
  | list h =>
    intro v hv
    obtain ⟨m, hm, rfl⟩ := List.mem_map.1 hv
    exact ⟨m, rfl, h m hm⟩
  | map => exact nofun

theorem entriesOf (h : Unaliased n) : ∀ e ∈ (View.mk anchors (some n)).entriesOf,
    ∃ k m, e = (⟨anchors, some k⟩, ⟨anchors, some m⟩) ∧ Unaliased k ∧ Unaliased m := by
  cases h with
  | scalar => exact nofun
  | list => exact nofun
  | map hk hv =>
    intro e he
    obtain ⟨entry, hmem, rfl⟩ := List.mem_map.1 he
    exact ⟨entry.1, entry.2, rfl, hk entry hmem, hv entry hmem⟩

theorem under (h : Unaliased n) (name : String) : ∀ v ∈ (View.mk anchors (some n)).under name,
    ∃ m, v = ⟨anchors, some m⟩ ∧ Unaliased m := by
  intro v hv
  obtain ⟨e, he, hsome⟩ := List.mem_filterMap.1 hv
  obtain ⟨k, m, rfl, -, hm⟩ := h.entriesOf e he
  dsimp only at hsome
  split at hsome
  · exact ⟨m, (Option.some.inj hsome).symm, hm⟩
  · cases hsome

end Unaliased

theorem foldr_eq_zero {α : Type} {f : α → Nat} {items : List α} (h : ∀ a ∈ items, f a = 0) :
    (items.map f).foldr (· + ·) 0 = 0 := by
  induction items with
  | nil => rfl
  | cons a items ih =>
    obtain ⟨ha, hitems⟩ := List.forall_mem_cons.1 h
    simp [ha, ih hitems]

mutual

/-- Where no alias is, none is followed. -/
theorem Unaliased.aliases {n : Node} (h : Unaliased n) : ∀ shape : Shape,
    View.aliases shape ⟨anchors, some n⟩ = 0
  | .leaf => h.ownAlias
  | .list item => by
    rw [View.aliases, h.ownAlias, foldr_eq_zero]
    intro v hv
    obtain ⟨m, rfl, hm⟩ := h.itemsOf v hv
    exact hm.aliases item
  | .record fields => by
    rw [View.aliases, h.ownAlias, foldr_eq_zero, h.aliasesUnder fields]
    rintro ⟨key, value⟩ he
    obtain ⟨k, m, heq, hk, -⟩ := h.entriesOf _ he
    cases heq
    exact hk.ownAlias

theorem Unaliased.aliasesUnder {n : Node} (h : Unaliased n) : ∀ fields : List (String × Shape),
    View.aliasesUnder fields ⟨anchors, some n⟩ = 0
  | [] => rfl
  | (name, shape) :: fields => by
    rw [View.aliasesUnder, foldr_eq_zero, h.aliasesUnder fields]
    intro v hv
    obtain ⟨m, rfl, hm⟩ := h.under name v hv
    exact hm.aliases shape

end

theorem Unaliased.isModest {n : Node} (h : Unaliased n) (shape : Shape) :
    (View.mk anchors (some n)).isModest shape = true := by
  rw [View.isModest, h.aliases shape]
  simp

theorem unaliased_record {fields : List (String × Node)} (h : ∀ field ∈ fields, Unaliased field.2) :
    Unaliased (recordNode fields) := by
  refine .map (fun entry hmem => ?_) (fun entry hmem => ?_)
  · obtain ⟨field, -, rfl⟩ := List.mem_map.1 hmem
    exact .scalar
  · obtain ⟨field, hfield, rfl⟩ := List.mem_map.1 hmem
    exact h field hfield

theorem unaliased_list {α : Type} {fields : α → List (String × Node)}
    (h : ∀ a, ∀ field ∈ fields a, Unaliased field.2) (items : List α) :
    Unaliased (listNode fields items) := by
  refine .list fun item hmem => ?_
  obtain ⟨a, -, rfl⟩ := List.mem_map.1 hmem
  exact unaliased_record (h a)

/-! ## Forms -/

theorem filter_key {v : Type} {entries : List (String × v)} (h : (entries.map (·.1)).Nodup)
    {entry : String × v} (hmem : entry ∈ entries) : entries.filter (·.1 == entry.1) = [entry] := by
  induction entries with
  | nil => cases hmem
  | cons first entries ih =>
    rw [List.map_cons, List.nodup_cons] at h
    obtain ⟨hnew, hdistinct⟩ := h
    rcases List.mem_cons.1 hmem with rfl | hmem
    · rw [List.filter_cons_of_pos (by simp), List.filter_eq_nil_iff.2]
      intro other hother heq
      rw [beq_iff_eq] at heq
      exact hnew (heq ▸ List.mem_map_of_mem hother)
    · rw [List.filter_cons_of_neg, ih hdistinct hmem]
      rw [beq_iff_eq]
      exact fun heq => hnew (heq ▸ List.mem_map_of_mem hmem)

/-- Each field that is asked for is found, if no name is given twice. -/
theorem pick?_names {v : Type} (entries : List (String × v)) (h : (entries.map (·.1)).Nodup) :
    Form.pick? entries (entries.map (·.1)) = some (entries.map fun entry => some entry.2) := by
  -- the entries stay whole while the names that are asked for are taken one by one
  suffices hsub : ∀ asked ⊆ entries, Form.pick? entries (asked.map (·.1)) =
      some (asked.map fun entry => some entry.2) from hsub entries (List.Subset.refl _)
  intro asked hasked
  induction asked with
  | nil => rfl
  | cons entry asked ih =>
    obtain ⟨hmem, hasked⟩ := List.cons_subset.1 hasked
    rw [List.map_cons, Form.pick?, filter_key h hmem, ih hasked]
    rfl

/-- A record is read as its fields. -/
theorem fields?_record (anchors : List (Nat × Node)) (fields : List (String × Node))
    (h : (fields.map (·.1)).Nodup) :
    Form.fields? (fields.map (·.1)) (View.mk anchors (some (recordNode fields))) =
      some (fields.map fun field => some (View.mk anchors (some field.2))) := by
  have hentries : (recordEntries fields).mapM (fun entry =>
      ((View.mk anchors none).child entry.1).text?.map (·, (View.mk anchors none).child entry.2)) =
        some (fields.map fun field => (field.1, View.mk anchors (some field.2))) := by
    rw [recordEntries, List.mapM_map]
    exact List.mapM_pure
  have hread : Form.fields? (fields.map (·.1)) (View.mk anchors (some (recordNode fields))) =
      ((recordEntries fields).mapM fun entry =>
        ((View.mk anchors none).child entry.1).text?.map (·, (View.mk anchors none).child entry.2)).bind
          (Form.pick? · (fields.map (·.1))) := rfl
  have hpick := pick?_names (fields.map fun field => (field.1, View.mk anchors (some field.2)))
    (by simpa [Function.comp_def] using h)
  rw [List.map_map, List.map_map] at hpick
  rw [hread, hentries]
  exact hpick

theorem text?_textNode (s : String) : Form.text? (View.mk anchors (some (textNode s))) = some s := rfl

theorem float?_floatNode (x : Float) :
    Form.float? (View.mk anchors (some (floatNode x))) = some x := Number.floatOfPlain?_show x

/-- A list is read as its items. -/
theorem listOrEmpty?_list {α : Type} {fields : α → List (String × Node)} {f : View → Option α}
    (h : ∀ a, f ⟨anchors, some (recordNode (fields a))⟩ = some a) (items : List α) :
    Form.listOrEmpty? f (some (View.mk anchors (some (listNode fields items)))) = some items := by
  have hread : (f ∘ (View.mk anchors none).child ∘ fun a => recordNode (fields a)) = pure := funext h
  have hitems : Form.listOrEmpty? f (some (View.mk anchors (some (listNode fields items)))) =
      ((items.map fun a => recordNode (fields a)).map (View.mk anchors none).child).mapM f := rfl
  rw [hitems, List.map_map, List.mapM_map, hread]
  exact (List.mapM_pure (f := id)).trans (by rw [List.map_id]; rfl)

end Yaml

/-! ## Documents -/

def MenuItem.yamlFields (item : MenuItem) : List (String × Node) :=
  [("item_id", textNode item.itemId.text), ("name", textNode item.name),
    ("description", textNode item.description), ("price", floatNode item.price)]

def Fixture.yamlFields (f : Fixture) : List (String × Node) :=
  [("restaurant_id", textNode f.restaurantId.text), ("menus", listNode MenuItem.yamlFields f.menus)]

def Document.yamlFields (d : Document) : List (String × Node) :=
  [("restaurants", listNode Fixture.yamlFields d.restaurants)]

theorem readsEntries_menuItem (item : MenuItem) :
    ReadsEntries item.yamlTokens (recordEntries item.yamlFields) := by
  have hprice : ReadsEntries (fieldTokens "price" [.scalar .plain (Number.Layout.yaml.show item.price)] ++ [])
      _ := .field (.scalar _ _) .nil
  rw [List.append_nil] at hprice
  exact .field (.scalar _ _) (.field (.scalar _ _) (.field (.scalar _ _) hprice))

theorem readsEntries_fixture (f : Fixture) :
    ReadsEntries f.yamlTokens (recordEntries f.yamlFields) := by
  have hmenus : ReadsEntries (fieldTokens "menus" (listTokens MenuItem.yamlTokens f.menus) ++ []) _ :=
    .field (readsNode_list readsEntries_menuItem f.menus) .nil
  rw [List.append_nil] at hmenus
  exact .field (.scalar _ _) hmenus

theorem readsEntries_document (d : Document) :
    ReadsEntries d.yamlTokens (recordEntries d.yamlFields) := by
  have hrestaurants :
      ReadsEntries (fieldTokens "restaurants" (listTokens Fixture.yamlTokens d.restaurants) ++ []) _ :=
    .field (readsNode_list readsEntries_fixture d.restaurants) .nil
  rw [List.append_nil] at hrestaurants
  exact hrestaurants

/-- The text of a document is read as the record of its fields. -/
theorem read?_toYaml (d : Document) : read? d.toYaml = some (some (recordNode d.yamlFields)) :=
  read?_block (tokens?_toYaml d) (readsEntries_document d)

theorem MenuItem.ofForm?_record (anchors : List (Nat × Node)) (item : MenuItem) :
    MenuItem.ofForm? (View.mk anchors (some (recordNode item.yamlFields))) = some item := by
  have hfields : Form.fields? MenuItem.fieldNames _ = _ :=
    fields?_record anchors item.yamlFields (show MenuItem.fieldNames.Nodup by decide)
  rw [MenuItem.ofForm?, hfields]
  simp [MenuItem.yamlFields, Form.identifier?, Form.textOrEmpty?,
    Form.floatOrZero?, text?_textNode, float?_floatNode]

theorem Fixture.ofForm?_record (anchors : List (Nat × Node)) (f : Fixture) :
    Fixture.ofForm? (View.mk anchors (some (recordNode f.yamlFields))) = some f := by
  have hfields : Form.fields? Fixture.fieldNames _ = _ :=
    fields?_record anchors f.yamlFields (show Fixture.fieldNames.Nodup by decide)
  rw [Fixture.ofForm?, hfields]
  simp [Fixture.yamlFields, Form.identifier?, text?_textNode,
    listOrEmpty?_list (MenuItem.ofForm?_record anchors)]

theorem Document.ofForm?_record (anchors : List (Nat × Node)) (d : Document) :
    Document.ofForm? (View.mk anchors (some (recordNode d.yamlFields))) = some d := by
  have hfields : Form.fields? ["restaurants"] _ = _ :=
    fields?_record anchors d.yamlFields (show ["restaurants"].Nodup by decide)
  rw [Document.ofForm?, restaurantsOfForm?, hfields]
  simp [Document.yamlFields,
    listOrEmpty?_list (Fixture.ofForm?_record anchors)]

theorem Document.unaliased (d : Document) : Unaliased (recordNode d.yamlFields) := by
  have hitem : ∀ item : MenuItem, ∀ field ∈ item.yamlFields, Unaliased field.2 := by
    intro item
    simp [MenuItem.yamlFields, textNode, floatNode, Unaliased.scalar]
  have hfixture : ∀ f : Fixture, ∀ field ∈ f.yamlFields, Unaliased field.2 := by
    intro f
    simp [Fixture.yamlFields, textNode, Unaliased.scalar, unaliased_list hitem]
  refine unaliased_record fun field hfield => ?_
  rw [List.mem_singleton.1 hfield]
  exact unaliased_list hfixture d.restaurants

/-- A document is what its text is read as. -/
theorem Document.ofYaml?_toYaml (d : Document) : Document.ofYaml? d.toYaml = some d := by
  have hview : view? d.toYaml =
      some ⟨(recordNode d.yamlFields).anchored, some (recordNode d.yamlFields)⟩ := by
    rw [view?, read?_toYaml]
    rfl
  rw [Document.ofYaml?, readAs?, hview, Option.filter_some_pos (d.unaliased.isModest _)]
  exact Document.ofForm?_record _ d

end LunchRush
