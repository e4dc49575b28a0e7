/-!
# What the gateway accepts

The limits of a registration and of an order, in one place: the constructors check them and the
generator draws within them.
-/

namespace LunchRush.Bounds

/-- The southern and northern end of the city. -/
def latitudeMin : Float := 9.0
def latitudeMax : Float := 9.1

/-- The western and eastern end of the city. -/
def longitudeMin : Float := 38.7
def longitudeMax : Float := 38.8

/-- How many entries a new menu has. -/
def menuMin : Nat := 5
def menuMax : Nat := 10

/-- The price of a new menu entry. -/
def priceMin : Float := 50.0
def priceMax : Float := 500.0

/-- How many lines an order has at most. -/
def orderLinesMax : Nat := 3

/-- How often an order line takes its item. -/
def quantityMin : Nat := 1
def quantityMax : Nat := 5

/-- The decimals of a coordinate and of a price. -/
def coordinateDecimals : Int := 6
def priceDecimals : Int := 2

/-- Whether a float lies between two others, ends included; what is not a number lies nowhere. -/
def within (low high x : Float) : Bool := low ≤ x && x ≤ high

end LunchRush.Bounds
