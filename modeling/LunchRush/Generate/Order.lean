import LunchRush.Fixture
import LunchRush.Order
import LunchRush.Random.Sample
/-!
# Orders

An order for some distinct items of a menu: first how many, then which, then how often each. A
menu without items is refused before anything is drawn.
-/

namespace LunchRush

/-- Why no order was made for a restaurant. -/
structure OrderRefused where
  restaurant : RestaurantId
  reason : Violation
deriving DecidableEq, Repr

/-- What is said about an order that was not made. -/
def OrderRefused.message (e : OrderRefused) : String :=
  s!"invalid input for restaurant {e.restaurant.text}: {e.reason.message}"

/-- What is said about it, and then about its cause. -/
def OrderRefused.chain (e : OrderRefused) : List String := [e.message, e.reason.message]

namespace Generate

open LunchRush.Random

variable {σ : Type} [Source σ]

/-- The lines of an order, each with a drawn quantity. -/
def orderLines : List MenuItem → Draw σ (Except Violation (List OrderLine))
  | [] => return .ok []
  | item :: items => do
    let quantity ← between32 Bounds.quantityMin Bounds.quantityMax
    match OrderLine.new item.itemId quantity with
    | .error reason => return .error reason
    | .ok line => return (← orderLines items).map (line :: ·)

/-- The order of the chosen items. -/
def orderOf (customer : CustomerId) (restaurant : RestaurantId) (chosen : List MenuItem) :
    Draw σ (Except OrderRefused Order) := do
  let lines ← orderLines chosen
  return (lines.bind (Order.new customer restaurant)).mapError (⟨restaurant, ·⟩)

/-- An order of up to three items of a menu. -/
def order (customer : CustomerId) (restaurant : RestaurantId) (menu : List MenuItem) :
    Draw σ (Except OrderRefused Order) :=
  if menu.isEmpty then return .error ⟨restaurant, .emptyMenu restaurant.text⟩
  else do
    let count ← between64 1 (min Bounds.orderLinesMax menu.length)
    let positions ← sample menu.length count
    orderOf customer restaurant (positions.filterMap (menu[·]?))

/-- An order at a fixture. -/
def orderAt (customer : CustomerId) (f : Fixture) : Draw σ (Except OrderRefused Order) :=
  order customer f.restaurantId f.menus

end Generate

end LunchRush
