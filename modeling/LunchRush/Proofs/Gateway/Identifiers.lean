import LunchRush.Proofs.Gateway.Operations
import Mathlib
/-!
# The identifiers of a gateway in memory

Restaurants are numbered from one on, whatever the gateway holds to begin with. So all identifiers
are distinct exactly where no restaurant that was held to begin with has the identifier of a number
that has been given since (`distinct_ids_iff`): always where none was held, and not where the first
number meets a restaurant that has its identifier (`given_id_repeats`). An item has the number of its
restaurant and its own in its identifier, and both can be read off it (`itemIdOf_inj`).
-/

namespace LunchRush.MemoryGateway

theorem idOf_injective : Function.Injective idOf := by
  intro m n h
  have ht : "restaurant-" ++ toString m = "restaurant-" ++ toString n := congrArg Identifier.text h
  exact Nat.repr_injective ((String.append_right_inj _).1 ht)

/-- The identifiers of the restaurants that are held, in order. -/
def ids (g : MemoryGateway) : List RestaurantId := g.restaurants.map Restaurant.restaurantId

/-- A gateway that held some restaurants to begin with and has given the numbers up to `count`. -/
structure Numbered (held : List RestaurantId) (count : Nat) (g : MemoryGateway) : Prop where
  next : g.nextId = count + 1
  ids : g.ids = held ++ (List.range' 1 count).map idOf

theorem Steps.numbered {g g' : MemoryGateway} {held : List RestaurantId} {count : Nat}
    (hs : Steps g g') (h : Numbered held count g) : ∃ count', Numbered held count' g' := by
  cases hs with
  | keeps hr hn =>
    refine ⟨count, hn.trans h.next, ?_⟩
    rw [ids, hr]
    exact h.ids
  | adds restaurant hid _ hr hn =>
    refine ⟨count + 1, by rw [hn, h.next], ?_⟩
    rw [h.next, Nat.add_comm] at hid
    rw [List.range'_concat, List.map_append, ← List.append_assoc, ← h.ids, Nat.one_mul]
    simp [ids, hr, hid]

theorem performAll_numbered {held : List RestaurantId} (operations : List Operation) :
    ∀ {g : MemoryGateway} {count : Nat}, Numbered held count g →
      ∃ count', Numbered held count' (g.performAll operations) := by
  induction operations with
  | nil =>
    intro g count h
    exact ⟨count, h⟩
  | cons operation operations ih =>
    intro g count h
    obtain ⟨count', h'⟩ := (perform_steps g operation).numbered h
    exact ih h'

theorem ofRestaurants_numbered (held : List Restaurant) :
    Numbered (held.map Restaurant.restaurantId) 0 (ofRestaurants held) :=
  ⟨rfl, by simp [ids, ofRestaurants]⟩

theorem Numbered.nodup_iff {held : List RestaurantId} {count : Nat} {g : MemoryGateway}
    (h : Numbered held count g) (hn : held.Nodup) :
    g.ids.Nodup ↔ ∀ number, 1 ≤ number → number < g.nextId → idOf number ∉ held := by
  have hg : ((List.range' 1 count).map idOf).Nodup := List.Nodup.map idOf_injective List.nodup_range'
  rw [h.ids, List.nodup_append]
  constructor
  · intro hd number hpos hlt hm
    refine hd.2.2 _ hm _ (List.mem_map_of_mem ?_) rfl
    rw [h.next] at hlt
    exact List.mem_range'_1.2 ⟨hpos, by omega⟩
  · intro hall
    refine ⟨hn, hg, ?_⟩
    rintro _ hm _ hg rfl
    obtain ⟨number, hr, rfl⟩ := List.mem_map.1 hg
    obtain ⟨hpos, hlt⟩ := List.mem_range'_1.1 hr
    exact hall number hpos (by rw [h.next]; omega) hm

/-- Whatever is done with a gateway: the restaurants it holds have distinct identifiers exactly where
none of those that it held to begin with has the identifier of a number that has been given. -/
theorem distinct_ids_iff (held : List Restaurant) (h : (held.map Restaurant.restaurantId).Nodup)
    (operations : List Operation) :
    ((ofRestaurants held).performAll operations).ids.Nodup ↔
      ∀ number, 1 ≤ number → number < ((ofRestaurants held).performAll operations).nextId →
        idOf number ∉ held.map Restaurant.restaurantId := by
  obtain ⟨count, hc⟩ := performAll_numbered operations (ofRestaurants_numbered held)
  exact hc.nodup_iff h

/-- A restaurant with a menu of one dish. -/
def kitchen (id : RestaurantId) : Restaurant := ⟨id, "", "", 0.0, 0.0, [⟨⟨"i1"⟩, "Soup", "", 60.0⟩]⟩

theorem distinct_ids_iff_apart :
    ([kitchen ⟨"r1"⟩, kitchen (idOf 3)].map Restaurant.restaurantId).Nodup ∧
      ((ofRestaurants [kitchen ⟨"r1"⟩, kitchen (idOf 3)]).performAll [.seed 1, .seed 0]).ids.Nodup := by
  have h : ([kitchen ⟨"r1"⟩, kitchen (idOf 3)].map Restaurant.restaurantId).Nodup := by decide
  refine ⟨h, (distinct_ids_iff _ h [.seed 1, .seed 0]).2 ?_⟩
  intro number hpos hlt
  have hlt : number < 3 := hlt
  interval_cases number <;> decide

/-- The first number is given though the restaurant that is held has its identifier. -/
theorem given_id_repeats :
    ([kitchen (idOf 1)].map Restaurant.restaurantId).Nodup ∧
      ((ofRestaurants [kitchen (idOf 1)]).performAll [.seed 1]).ids = [idOf 1, idOf 1] := by
  decide

/-! ## The identifiers of items -/

/-- The identifier of an item of the restaurant with a number. -/
def itemIdOf (number i : Nat) : ItemId := ⟨s!"{(idOf number).text}-item-{i}"⟩

theorem itemIdOf_toList (number i : Nat) : (itemIdOf number i).text.toList =
    "restaurant-".toList ++
      ((toString number).toList ++ '-' :: ("item-".toList ++ (toString i).toList)) := by
  show ("restaurant-" ++ toString number ++ "-item-" ++ toString i).toList = _
  simp only [String.toList_append, List.append_assoc]
  rfl

/-- Digits end where a hyphen comes, so the number in front of it can be read off. -/
theorem digits_append_inj {m n : Nat} {xs ys : List Char}
    (h : (toString m).toList ++ '-' :: xs = (toString n).toList ++ '-' :: ys) : m = n ∧ xs = ys := by
  have hdigits : ∀ (k : Nat) (zs : List Char),
      ((toString k).toList ++ '-' :: zs).takeWhile Char.isDigit = (toString k).toList := by
    intro k zs
    rw [List.takeWhile_append_of_pos, List.takeWhile_cons_of_neg (by decide), List.append_nil]
    intro c hc
    have hc : c ∈ Nat.toDigits 10 k := by simpa [toString, Nat.repr] using hc
    exact Nat.isDigit_of_mem_toDigits (by decide) (by decide) hc
  have hmn : (toString m).toList = (toString n).toList := by
    rw [← hdigits m xs, h, hdigits]
  have hm : m = n := Nat.repr_injective (String.toList_inj.1 hmn)
  subst hm
  simpa using h

theorem itemIdOf_inj {m n i j : Nat} (h : itemIdOf m i = itemIdOf n j) : m = n ∧ i = j := by
  have ht := congrArg (fun id : ItemId => id.text.toList) h
  simp only [itemIdOf_toList] at ht
  obtain ⟨hm, hi⟩ := digits_append_inj (List.append_cancel_left ht)
  exact ⟨hm, Nat.repr_injective (String.toList_inj.1 (List.append_cancel_left hi))⟩

theorem newItems_ids (number : Nat) (menu : List MenuTemplate) :
    (newItems (idOf number).text menu).map MenuItem.itemId =
      (List.range menu.length).map (itemIdOf number) := by
  rw [newItems, List.map_map, List.range_eq_range', ← List.zipIdx_map_snd 0 menu, List.map_map]
  rfl

theorem exists_itemIdOf {number : Nat} {menu : List MenuTemplate} {item : MenuItem}
    (h : item ∈ newItems (idOf number).text menu) : ∃ i, item.itemId = itemIdOf number i := by
  have hid := List.mem_map_of_mem (f := MenuItem.itemId) h
  rw [newItems_ids] at hid
  obtain ⟨i, -, he⟩ := List.mem_map.1 hid
  exact ⟨i, he.symm⟩

theorem nodup_newItems_ids (number : Nat) (menu : List MenuTemplate) :
    ((newItems (idOf number).text menu).map MenuItem.itemId).Nodup := by
  rw [newItems_ids]
  exact List.Nodup.map (fun i j h => (itemIdOf_inj h).2) List.nodup_range

theorem idOf_not_blank (number : Nat) : (idOf number).isBlank = false := by
  have ht : (idOf number).text.toList = 'r' :: ("estaurant-".toList ++ (toString number).toList) := by
    show ("restaurant-" ++ toString number).toList = _
    rw [String.toList_append]
    rfl
  rw [Identifier.isBlank, Text.isBlank, ht]
  rfl

theorem itemIdOf_not_blank (number i : Nat) : (itemIdOf number i).isBlank = false := by
  rw [Identifier.isBlank, Text.isBlank, itemIdOf_toList]
  rfl

end LunchRush.MemoryGateway
