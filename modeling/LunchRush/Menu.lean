import LunchRush.Identifier
import LunchRush.Number.Rounding
/-!
# Menus

A menu item is what the gateway lists: it has an identifier, and its price was set by someone else.
A menu template is what a new restaurant asks for: it has no identifier yet, and its price keeps
to the bounds.
-/

namespace LunchRush

/-- An item that can be ordered. -/
structure MenuItem where
  itemId : ItemId
  name : String
  description : String
  price : Float
deriving DecidableEq, Repr

/-- The rules of a listed item: the identifier comes before the price. -/
def MenuItem.check (item : MenuItem) : Except Violation Unit :=
  if item.itemId.isBlank then .error (.blank .itemId)
  else if !item.price.isFinite || item.price < 0 then .error (.invalidPrice item.price)
  else .ok ()

/-- An item that keeps the rules. -/
def MenuItem.new (itemId : ItemId) (name description : String) (price : Float) :
    Except Violation MenuItem := do
  let item : MenuItem := ⟨itemId, name, description, price⟩
  item.check
  return item

/-- An entry of the menu that a new restaurant asks for. -/
structure MenuTemplate where
  name : String
  description : String
  price : Float
deriving DecidableEq, Repr

/-- A template with a name and a price in whole cents within bounds. -/
def MenuTemplate.new (name description : String) (price : Float) : Except Violation MenuTemplate :=
  if Text.isBlank name then .error (.blank .menuName)
  else if !Bounds.within Bounds.priceMin Bounds.priceMax price then .error (.priceOutside price)
  else if !Number.hasDecimals price Bounds.priceDecimals then .error (.priceTooFine price)
  else .ok ⟨name, description, price⟩

end LunchRush
