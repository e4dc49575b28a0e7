import LunchRush.Bounds
import LunchRush.Number.Layout
import LunchRush.Text.Quoted
/-!
# Broken rules

Every way in which a restaurant, a menu or an order can break a rule of the gateway, and what is
said about it.
-/

namespace LunchRush

/-- The fields that must not be blank. -/
inductive TextField where
  | restaurantId
  | itemId
  | customerId
  | name
  | menuName
deriving DecidableEq, Repr

/-- How a message names the field. -/
def TextField.label : TextField → String
  | .restaurantId => "restaurant_id"
  | .itemId => "item_id"
  | .customerId => "customer_id"
  | .name => "name"
  | .menuName => "menu name"

/-- A broken rule. -/
inductive Violation where
  | blank (field : TextField)
  /-- A listed price must be finite and not negative. -/
  | invalidPrice (price : Float)
  /-- A new menu entry has a price within bounds and with two decimals. -/
  | priceOutside (price : Float)
  | priceTooFine (price : Float)
  | latitudeOutside (latitude low high : Float)
  | longitudeOutside (longitude low high : Float)
  | menuSize (size : Nat)
  | emptyMenu (restaurant : String)
  | quantityOutside (quantity : Nat)
  | repeatedMenuItem (restaurant item : String)
  | noLines
  | tooManyLines (count : Nat)
  | repeatedLine (item : String)
  | invalidRadius (radius : Float)
  | invalidEmail (email : String)
  | invalidSecretKey (key : String)
deriving DecidableEq, Repr

namespace Violation

open Number (shown)

/-- Two ends of a range of floats. -/
def ends (low high : Float) : String := "[" ++ shown low ++ ", " ++ shown high ++ "]"

/-- What is said about a broken rule. -/
def message : Violation → String
  | .blank field => s!"{field.label} must not be empty"
  | .invalidPrice price => s!"price must be a finite non-negative number, got {shown price}"
  | .priceOutside price => s!"price {shown price} outside {ends Bounds.priceMin Bounds.priceMax}"
  | .priceTooFine price => s!"price {shown price} has more than two decimals"
  | .latitudeOutside latitude low high => s!"latitude {shown latitude} outside {ends low high}"
  | .longitudeOutside longitude low high => s!"longitude {shown longitude} outside {ends low high}"
  | .menuSize size => s!"menu has {size} items, expected {Bounds.menuMin}..={Bounds.menuMax}"
  | .emptyMenu restaurant => s!"restaurant {restaurant} has no menu items"
  | .quantityOutside quantity =>
    s!"quantity {quantity} outside {Bounds.quantityMin}..={Bounds.quantityMax}"
  | .repeatedMenuItem restaurant item =>
    s!"restaurant {restaurant} lists menu item {item} more than once"
  | .noLines => "order has no items"
  | .tooManyLines count => s!"order has {count} items, at most {Bounds.orderLinesMax} allowed"
  | .repeatedLine item => s!"menu item {item} appears more than once in the order"
  | .invalidRadius radius => s!"radius_km must be greater than zero, got {shown radius}"
  | .invalidEmail email => s!"invalid email address: {Text.quoted email}"
  | .invalidSecretKey key => s!"secret key is not a UUID: {Text.quoted key}"

end Violation

end LunchRush
