import LunchRush.Fixture
/-!
# Usable fixtures

What the check of a fixture rules out: a usable fixture has a menu (`menu_of_usable`), and no two
items of it share an identifier (`items_of_usable`).
-/

namespace LunchRush.Fixture

theorem isUsable_iff (f : Fixture) : f.isUsable = true ↔ f.check = .ok () := by
  unfold isUsable
  cases f.check <;> simp

theorem check_eq_ok_iff (f : Fixture) :
    f.check = .ok () ↔ f.restaurantId.isBlank = false ∧ f.menus ≠ [] ∧
      checkItems f.restaurantId.text [] f.menus = .ok () := by
  unfold check hasMenu
  split
  · simp_all
  · split <;> simp_all

/-- The items that pass are new to those seen before, and to one another. -/
theorem items_of_checkItems {restaurant : String} {seen : List ItemId} {items : List MenuItem}
    (h : checkItems restaurant seen items = .ok ()) :
    (items.map MenuItem.itemId).Nodup ∧ ∀ item ∈ items, item.itemId ∉ seen := by
  induction items generalizing seen with
  | nil => simp
  | cons item items ih =>
    unfold checkItems at h
    cases hc : item.check with
    | error reason => simp [hc, bind, Except.bind] at h
    | ok _ =>
      simp only [hc, bind, Except.bind] at h
      split at h
      · cases h
      · rename_i hs
        obtain ⟨hn, hd⟩ := ih h
        simp only [List.mem_cons, not_or] at hd
        refine ⟨?_, ?_⟩
        · rw [List.map_cons, List.nodup_cons]
          refine ⟨fun hm => ?_, hn⟩
          obtain ⟨other, ho, he⟩ := List.mem_map.1 hm
          exact (hd other ho).1 he
        · rintro other (_ | ⟨_, ho⟩)
          · simpa using hs
          · exact (hd other ho).2

/-- Items pass that keep their own rules and are new to those seen before, and to one another. -/
theorem checkItems_eq_ok {restaurant : String} {seen : List ItemId} {items : List MenuItem}
    (hc : ∀ item ∈ items, item.check = .ok ()) (hn : (items.map MenuItem.itemId).Nodup)
    (hs : ∀ item ∈ items, item.itemId ∉ seen) : checkItems restaurant seen items = .ok () := by
  induction items generalizing seen with
  | nil => rfl
  | cons item items ih =>
    rw [List.map_cons, List.nodup_cons] at hn
    unfold checkItems
    simp only [hc item List.mem_cons_self, bind, Except.bind]
    rw [if_neg (by simpa using hs item List.mem_cons_self)]
    apply ih (fun other ho => hc other (List.mem_cons_of_mem _ ho)) hn.2
    intro other ho hm
    rcases List.mem_cons.1 hm with he | hm
    · exact hn.1 (he ▸ List.mem_map_of_mem ho)
    · exact hs other (List.mem_cons_of_mem _ ho) hm

theorem menu_of_usable {f : Fixture} (h : f.isUsable = true) : f.menus ≠ [] :=
  ((check_eq_ok_iff f).1 ((isUsable_iff f).1 h)).2.1

theorem items_of_usable {f : Fixture} (h : f.isUsable = true) :
    (f.menus.map MenuItem.itemId).Nodup :=
  (items_of_checkItems ((check_eq_ok_iff f).1 ((isUsable_iff f).1 h)).2.2).1

end LunchRush.Fixture
