import LunchRush.Generate.Order
import LunchRush.Proofs.Random.Chance
import Mathlib.Data.List.Perm.Subperm
/-!
# Drawn orders

An order takes the items at some distinct positions of a menu, each in a small quantity. Those
positions settle whether it is made: where the identifiers at them are distinct it is the order of
these items, and elsewhere it is refused with an identifier that the menu holds twice
(`order_settled_by_positions`).
-/

namespace LunchRush

open LunchRush.Random (Source Draw Stream Yields PassesOver Sampled after chance)

/-! ## Lines -/

theorem OrderLine.new_eq_ok {item : ItemId} {quantity : Nat} (h : 1 ≤ quantity ∧ quantity ≤ 5) :
    OrderLine.new item quantity = .ok ⟨item, quantity⟩ := by
  unfold OrderLine.new
  refine if_neg fun hout => ?_
  rw [Bool.or_eq_true, decide_eq_true_eq, decide_eq_true_eq] at hout
  simp only [Bounds.quantityMin, Bounds.quantityMax] at hout
  omega

theorem firstRepeated?_of_nodup {seen : List ItemId} {lines : List OrderLine}
    (hn : (lines.map OrderLine.itemId).Nodup) (hs : ∀ line ∈ lines, line.itemId ∉ seen) :
    firstRepeated? seen lines = none := by
  induction lines generalizing seen with
  | nil => rfl
  | cons line lines ih =>
    rw [List.map_cons, List.nodup_cons] at hn
    unfold firstRepeated?
    rw [if_neg (by simpa using hs line List.mem_cons_self)]
    refine ih hn.2 fun other ho hm => ?_
    rcases List.mem_cons.1 hm with he | hm
    · exact hn.1 (he ▸ List.mem_map_of_mem ho)
    · exact hs other (List.mem_cons_of_mem _ ho) hm

/-- Where items repeat, or come that were seen before, the first of them is found, and it is there
twice. -/
theorem firstRepeated?_of_not_nodup {seen : List ItemId} {lines : List OrderLine}
    (hn : ¬ (lines.map OrderLine.itemId ++ seen).Nodup) (hs : seen.Nodup) :
    ∃ item, firstRepeated? seen lines = some item ∧
      2 ≤ (lines.map OrderLine.itemId ++ seen).count item := by
  induction lines generalizing seen with
  | nil => exact absurd hs hn
  | cons line lines ih =>
    rw [List.map_cons, List.cons_append]
    unfold firstRepeated?
    split
    · rename_i hm
      have hpos : 0 < seen.count line.itemId := List.count_pos_iff.2 (by simpa using hm)
      refine ⟨line.itemId, rfl, ?_⟩
      rw [List.count_cons_self, List.count_append]
      omega
    · rename_i hm
      -- the item moves from the lines to those that were seen
      have hmove : (lines.map OrderLine.itemId ++ line.itemId :: seen).Perm
          (line.itemId :: (lines.map OrderLine.itemId ++ seen)) := List.perm_middle
      obtain ⟨item, hi, hc⟩ := ih (fun h => hn (hmove.nodup_iff.1 h))
        (List.nodup_cons.2 ⟨by simpa using hm, hs⟩)
      exact ⟨item, hi, by rwa [← hmove.count_eq item]⟩

theorem Order.new_eq_ok (customer : CustomerId) (restaurant : RestaurantId) {lines : List OrderLine}
    (hl : 1 ≤ lines.length ∧ lines.length ≤ 3) (hn : (lines.map OrderLine.itemId).Nodup) :
    Order.new customer restaurant lines = .ok ⟨customer, restaurant, lines⟩ := by
  unfold Order.new
  rw [if_neg (by cases lines <;> simp_all), if_neg (by simp [Bounds.orderLinesMax]; omega),
    firstRepeated?_of_nodup hn (by simp)]

theorem Order.new_eq_error (customer : CustomerId) (restaurant : RestaurantId)
    {lines : List OrderLine} (hl : 1 ≤ lines.length ∧ lines.length ≤ 3)
    (hn : ¬ (lines.map OrderLine.itemId).Nodup) :
    ∃ item, Order.new customer restaurant lines = .error (.repeatedLine item.text) ∧
      2 ≤ (lines.map OrderLine.itemId).count item := by
  obtain ⟨item, hi, hc⟩ := firstRepeated?_of_not_nodup (by rwa [List.append_nil]) .nil
  rw [List.append_nil] at hc
  refine ⟨item, ?_, hc⟩
  unfold Order.new
  rw [if_neg (by cases lines <;> simp_all), if_neg (by simp [Bounds.orderLinesMax]; omega), hi]

namespace Generate

variable {σ : Type} [Source σ]

/-- Every item gets a line of its own, in a small quantity. -/
theorem orderLines_yields (items : List MenuItem) :
    Yields (orderLines items : Draw σ (Except Violation (List OrderLine))) fun drawn =>
      ∃ lines, drawn = .ok lines ∧ lines.map OrderLine.itemId = items.map MenuItem.itemId ∧
        ∀ line ∈ lines, 1 ≤ line.quantity ∧ line.quantity ≤ 5 := by
  induction items with
  | nil => exact .pure ⟨[], rfl, rfl, by simp⟩
  | cons item items ih =>
    refine (Random.between32_yields (by decide)).bind fun quantity hq => ?_
    rw [OrderLine.new_eq_ok hq]
    refine ih.bind fun drawn hd => ?_
    obtain ⟨lines, rfl, hi, hall⟩ := hd
    refine .pure ⟨_, rfl, by simp [hi], ?_⟩
    rintro line (_ | ⟨_, hl⟩)
    · exact hq
    · exact hall line hl

/-- An order for a few items is refused exactly where two of them have one identifier. -/
theorem orderOf_yields (customer : CustomerId) (restaurant : RestaurantId) (items : List MenuItem)
    (hl : 1 ≤ items.length ∧ items.length ≤ 3) :
    Yields (orderOf customer restaurant items : Draw σ (Except OrderRefused Order)) fun answer =>
      if (items.map MenuItem.itemId).Nodup then
        ∃ lines, answer = .ok ⟨customer, restaurant, lines⟩ ∧
          lines.map OrderLine.itemId = items.map MenuItem.itemId ∧
          ∀ line ∈ lines, 1 ≤ line.quantity ∧ line.quantity ≤ 5
      else
        ∃ item, answer = .error ⟨restaurant, .repeatedLine item.text⟩ ∧
          2 ≤ (items.map MenuItem.itemId).count item := by
  refine (orderLines_yields items).bind fun drawn hd => ?_
  obtain ⟨lines, rfl, hi, hq⟩ := hd
  have hlen : lines.length = items.length := by
    rw [← List.length_map (f := OrderLine.itemId), hi, List.length_map]
  rw [← hlen] at hl
  rw [← hi]
  refine .pure ?_
  split
  · rename_i hn
    exact ⟨lines, congrArg (Except.mapError _) (Order.new_eq_ok customer restaurant hl hn), rfl, hq⟩
  · rename_i hn
    obtain ⟨item, he, hc⟩ := Order.new_eq_error customer restaurant hl hn
    exact ⟨item, congrArg (Except.mapError _) he, hc⟩

/-! ## Positions -/

/-- The positions of an order's items on a menu: first how many, then which. -/
def positions (size : Nat) : Draw σ (List Nat) := do
  let count ← Random.between64 1 (min Bounds.orderLinesMax size)
  Random.sample size count

/-- The items at some positions of a menu, in the order of the positions. -/
def itemsAt (menu : List MenuItem) (positions : List Nat) : List MenuItem :=
  positions.filterMap (menu[·]?)

theorem itemsAt_eq_map {menu : List MenuItem} {positions : List Nat}
    (h : ∀ i ∈ positions, i < menu.length) :
    (itemsAt menu positions).map some = positions.map (menu[·]?) := by
  induction positions with
  | nil => rfl
  | cons i positions ih =>
    have hi := List.getElem?_eq_getElem (h i List.mem_cons_self)
    rw [itemsAt, List.filterMap_cons_some hi, List.map_cons, List.map_cons, hi]
    exact congrArg _ (ih fun j hj => h j (List.mem_cons_of_mem _ hj))

theorem itemsAt_length {menu : List MenuItem} {positions : List Nat}
    (h : ∀ i ∈ positions, i < menu.length) : (itemsAt menu positions).length = positions.length := by
  simpa using congrArg List.length (itemsAt_eq_map h)

theorem itemsAt_range (menu : List MenuItem) : itemsAt menu (List.range menu.length) = menu := by
  induction menu with
  | nil => rfl
  | cons item menu ih =>
    have hfirst : (item :: menu)[0]? = some item := rfl
    rw [List.length_cons, List.range_succ_eq_map, itemsAt, List.filterMap_cons_some hfirst,
      List.filterMap_map]
    exact congrArg _ ih

/-- Distinct positions take no item of a menu twice. -/
theorem itemsAt_subperm {menu : List MenuItem} {positions : List Nat}
    (h : Sampled menu.length positions) :
    ((itemsAt menu positions).map MenuItem.itemId).Subperm (menu.map MenuItem.itemId) := by
  obtain ⟨sorted, hp, hs⟩ : positions.Subperm (List.range menu.length) :=
    List.subperm_of_subset h.nodup fun i hi => List.mem_range.2 (h.below i hi)
  have hsub : (itemsAt menu sorted).Sublist (itemsAt menu (List.range menu.length)) :=
    hs.filterMap _
  rw [itemsAt_range] at hsub
  exact ⟨_, (hp.filterMap _).map _, hsub.map _⟩

theorem itemsAt_nodup {menu : List MenuItem} {positions : List Nat}
    (h : Sampled menu.length positions) (hn : (menu.map MenuItem.itemId).Nodup) :
    ((itemsAt menu positions).map MenuItem.itemId).Nodup := by
  obtain ⟨_, hp, hs⟩ := itemsAt_subperm h
  exact hp.nodup_iff.1 (hs.nodup hn)

theorem positions_yields {size : Nat} (h : 0 < size) :
    Yields (positions size : Draw σ (List Nat)) fun chosen =>
      Sampled size chosen ∧ 1 ≤ chosen.length ∧ chosen.length ≤ min 3 size := by
  refine (Random.between64_yields (by simp [Bounds.orderLinesMax]; omega)).bind fun count hc => ?_
  simp only [Bounds.orderLinesMax] at hc
  refine (Random.sample_yields (by omega : count ≤ size)).imp fun chosen hs => ?_
  rw [hs.2]
  exact ⟨hs.1, hc⟩

/-- On a menu with items an order depends on the source through the positions and what comes after
them. -/
theorem order_eq_positions (customer : CustomerId) (restaurant : RestaurantId) {menu : List MenuItem}
    (h : menu ≠ []) :
    (order customer restaurant menu : Draw σ (Except OrderRefused Order)) =
      positions menu.length >>= fun chosen => orderOf customer restaurant (itemsAt menu chosen) := by
  unfold order
  rw [if_neg (by simpa using h)]
  exact (bind_assoc ..).symm

/-- An order for the items at some positions that were drawn from a menu. -/
theorem orderOf_positions_yields (customer : CustomerId) (restaurant : RestaurantId) {menu : List MenuItem}
    {chosen : List Nat} (hs : Sampled menu.length chosen)
    (hl : 1 ≤ chosen.length ∧ chosen.length ≤ min 3 menu.length) :
    Yields (orderOf customer restaurant (itemsAt menu chosen) : Draw σ (Except OrderRefused Order))
      fun answer =>
        if ((itemsAt menu chosen).map MenuItem.itemId).Nodup then
          ∃ lines, answer = .ok ⟨customer, restaurant, lines⟩ ∧
            lines.map OrderLine.itemId = (itemsAt menu chosen).map MenuItem.itemId ∧
            ∀ line ∈ lines, 1 ≤ line.quantity ∧ line.quantity ≤ 5
        else
          ∃ item, answer = .error ⟨restaurant, .repeatedLine item.text⟩ ∧
            2 ≤ (menu.map MenuItem.itemId).count item := by
  have hlength := itemsAt_length hs.below
  refine (orderOf_yields customer restaurant (itemsAt menu chosen) (by omega)).imp fun answer ha => ?_
  split
  · rename_i hn
    rwa [if_pos hn] at ha
  · rename_i hn
    rw [if_neg hn] at ha
    obtain ⟨item, he, hc⟩ := ha
    -- what is twice among the items is twice on the menu
    exact ⟨item, he, Nat.le_trans hc ((itemsAt_subperm hs).count_le item)⟩

theorem order_yields (customer : CustomerId) (restaurant : RestaurantId) {menu : List MenuItem}
    (h : menu ≠ []) :
    Yields (order customer restaurant menu : Draw σ (Except OrderRefused Order)) fun _ => True := by
  rw [order_eq_positions customer restaurant h]
  exact (positions_yields (List.length_pos_iff.2 h)).bind fun chosen hc =>
    (orderOf_positions_yields customer restaurant hc.1 hc.2).imp fun _ _ => trivial

end Generate

end LunchRush
