import LunchRush.Identifier
/-!
# Orders

An order names one restaurant and takes one to three of its items, each once and in a small
quantity.
-/

namespace LunchRush

/-- One item of an order and how often it is taken. -/
structure OrderLine where
  itemId : ItemId
  quantity : Nat
deriving DecidableEq, Repr

/-- A line with an allowed quantity. -/
def OrderLine.new (itemId : ItemId) (quantity : Nat) : Except Violation OrderLine :=
  if quantity < Bounds.quantityMin || Bounds.quantityMax < quantity then
    .error (.quantityOutside quantity)
  else .ok ⟨itemId, quantity⟩

/-- An order of one customer at one restaurant. -/
structure Order where
  customerId : CustomerId
  restaurantId : RestaurantId
  lines : List OrderLine
deriving DecidableEq, Repr

/-- The first line whose item an earlier line has taken. -/
def firstRepeated? : (seen : List ItemId) → List OrderLine → Option ItemId
  | _, [] => none
  | seen, line :: lines =>
    if seen.contains line.itemId then some line.itemId
    else firstRepeated? (line.itemId :: seen) lines

/-- An order that the gateway's form admits. -/
def Order.new (customerId : CustomerId) (restaurantId : RestaurantId) (lines : List OrderLine) :
    Except Violation Order :=
  if lines.isEmpty then .error .noLines
  else if Bounds.orderLinesMax < lines.length then .error (.tooManyLines lines.length)
  else match firstRepeated? [] lines with
    | some item => .error (.repeatedLine item.text)
    | none => .ok ⟨customerId, restaurantId, lines⟩

end LunchRush
