import LunchRush.Json.Value
/-!
# Records in key order

Putting the fields of a record in order changes nothing that is looked up in it: under a key stands
what was last written under it, in order itself (`field?_sorted`).
-/

namespace LunchRush.Json

theorem lookup_cons_of_ne {k key : String} (h : k ≠ key) (value : Json) (fields : List (String × Json)) :
    List.lookup k ((key, value) :: fields) = fields.lookup k := by
  rw [List.lookup_cons, beq_eq_false_iff_ne.2 h]

theorem lookup_putField_self (key : String) (value : Json) (fields : List (String × Json)) :
    (putField key value fields).lookup key = some value := by
  induction fields with
  | nil => exact List.lookup_cons_self
  | cons field fields ih =>
    unfold putField
    split
    · exact List.lookup_cons_self
    · split
      · exact List.lookup_cons_self
      · rename_i hne
        rw [lookup_cons_of_ne hne, ih]

theorem lookup_putField_of_ne {k key : String} (h : k ≠ key) (value : Json)
    (fields : List (String × Json)) : (putField key value fields).lookup k = fields.lookup k := by
  induction fields with
  | nil => exact lookup_cons_of_ne h value []
  | cons field fields ih =>
    unfold putField
    split
    · exact lookup_cons_of_ne h value _
    · split
      · rename_i heq
        rw [lookup_cons_of_ne h, lookup_cons_of_ne (heq ▸ h)]
      · rw [List.lookup_cons, List.lookup_cons, ih]

/-- The field that is put last counts. -/
theorem lookup_sortFields (k : String) (fields : List (String × Json)) :
    (sortFields fields).lookup k = fields.reverse.lookup k := by
  have hfold : ∀ acc, (fields.foldl (fun acc (key, value) => putField key value acc) acc).lookup k =
      (fields.reverse.lookup k).or (acc.lookup k) := by
    induction fields with
    | nil => intro acc; rfl
    | cons field fields ih =>
      intro acc
      rw [List.foldl_cons, ih, List.reverse_cons, List.lookup_append, Option.or_assoc]
      congr 1
      by_cases h : k = field.1
      · subst h
        rw [lookup_putField_self, List.lookup_cons_self]
        rfl
      · rw [lookup_putField_of_ne h, lookup_cons_of_ne h]
        rfl
  exact (hfold []).trans (by rw [List.lookup_nil, Option.or_none])

theorem sortedItems_eq (items : List Json) : sortedItems items = items.map sorted := by
  induction items with
  | nil => rfl
  | cons item items ih => rw [sortedItems, ih, List.map_cons]

theorem sortedValues_eq (fields : List (String × Json)) :
    sortedValues fields = fields.map fun field => (field.1, sorted field.2) := by
  induction fields with
  | nil => rfl
  | cons field fields ih => rw [sortedValues, ih, List.map_cons]

theorem lookup_map_sorted (k : String) (fields : List (String × Json)) :
    (fields.map fun field => (field.1, sorted field.2)).lookup k = (fields.lookup k).map sorted := by
  induction fields with
  | nil => rfl
  | cons field fields ih =>
    rw [List.map_cons, List.lookup_cons, List.lookup_cons, ih]
    cases k == field.1 <;> rfl

theorem field?_sorted (k : String) (fields : List (String × Json)) :
    (sorted (.record fields)).field? k = (fields.reverse.lookup k).map sorted := by
  rw [sorted, field?, lookup_sortFields, sortedValues_eq, ← List.map_reverse, lookup_map_sorted]

end LunchRush.Json
