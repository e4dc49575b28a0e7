import LunchRush.Gateway.Basic
import LunchRush.Json.Printer
import LunchRush.Json.Reader
import LunchRush.Wire.Write
/-!
# A gateway in memory

A gateway that keeps its restaurants in a list and can be told to fail. It counts the calls and
keeps every order it was sent, accepted or not.
-/

namespace LunchRush

/-- The state of a gateway in memory. -/
structure MemoryGateway where
  healthy : Bool := true
  listingFails : Bool := false
  /-- Whether registered restaurants come back without their menus. -/
  stripsMenus : Bool := false
  /-- The registrations that fail, counted from zero. -/
  failingAttempts : List Nat := []
  /-- The status that every order gets. -/
  forcedStatus : Option Nat := none
  restaurants : List Restaurant := []
  registrationAttempts : Nat := 0
  listCalls : Nat := 0
  nextId : Nat := 1
  /-- The orders that were sent, the first one first. -/
  orders : List Json := []

namespace MemoryGateway

/-- A gateway that holds some restaurants. -/
def ofRestaurants (restaurants : List Restaurant) : MemoryGateway := { restaurants }

/-- A reply that explains a refusal. -/
def refusal (reason : String) : String := Json.compact (.record [("error", .text reason)])

/-- The items of a new restaurant. -/
def newItems (restaurant : String) (menu : List MenuTemplate) : List MenuItem :=
  menu.zipIdx.map fun (entry, i) =>
    ⟨⟨s!"{restaurant}-item-{i}"⟩, entry.name, entry.description, entry.price⟩

/-- A restaurant under the next identifier. -/
def allocate (g : MemoryGateway) (name email : String) (latitude longitude : Float)
    (menu : List MenuTemplate) : Restaurant × MemoryGateway :=
  let id := s!"restaurant-{g.nextId}"
  (⟨⟨id⟩, name, email, latitude, longitude, newItems id menu⟩, { g with nextId := g.nextId + 1 })

/-- Adds a restaurant with a menu of `items` dishes. -/
def seed (g : MemoryGateway) (items : Nat) : Restaurant × MemoryGateway :=
  let menu := (List.range items).map fun i => ⟨s!"Dish{i} Special", "", 100.0⟩
  let (restaurant, g) := g.allocate "Seeded Kitchen" "seeded@example.com" 0.0 0.0 menu
  (restaurant, { g with restaurants := g.restaurants ++ [restaurant] })

/-- Registers a restaurant, unless this attempt is to fail. -/
def register (r : Registration) (g : MemoryGateway) : Except GatewayError Restaurant × MemoryGateway :=
  let fails := g.failingAttempts.contains g.registrationAttempts
  let g := { g with registrationAttempts := g.registrationAttempts + 1 }
  if fails then (.error (.status 500 (refusal "Failed to create restaurant")), g)
  else
    let (restaurant, g) := g.allocate r.name r.email r.latitude r.longitude r.menus
    let restaurant := if g.stripsMenus then { restaurant with menus := [] } else restaurant
    (.ok restaurant, { g with restaurants := g.restaurants ++ [restaurant] })

/-- All restaurants, wherever they are. -/
def list (_ : Area) (g : MemoryGateway) : Except GatewayError (List Restaurant) × MemoryGateway :=
  let g := { g with listCalls := g.listCalls + 1 }
  if g.listingFails then (.error (.status 503 (refusal "restaurant service unavailable")), g)
  else (.ok g.restaurants, g)

/-- The item that a line of an order names, and the quantity; a line without one has none. -/
def lineOf? (restaurant : Restaurant) (line : Json) : Option (MenuItem × Float) := do
  let id ← (← line.field? "item_id").text?
  let item ← restaurant.menus.find? (·.itemId.text == id)
  let quantity := ((line.field? "quantity").bind Json.float?).getD 0.0
  if 1.0 ≤ quantity then some (item, quantity) else none

/-- The total of some lines, added up from the left. -/
def total? (restaurant : Restaurant) : (sum : Float) → List Json → Option Float
  | sum, [] => some sum
  | sum, line :: lines =>
    match lineOf? restaurant line with
    | some (item, quantity) => total? restaurant (sum + item.price * quantity) lines
    | none => none

/-- The reply to an order, which may be any value. -/
def reply (g : MemoryGateway) (order : Json) : Reply :=
  match g.forcedStatus with
  | some status => ⟨status, refusal "forced status"⟩
  | none =>
    let id := (order.field? "restaurant_id").bind Json.text?
    match id.bind fun id => g.restaurants.find? (·.restaurantId.text == id) with
    | none => ⟨500, refusal "Restaurant not found"⟩
    | some restaurant =>
      match (order.field? "items").bind Json.list? with
      | some (line :: lines) =>
        match total? restaurant 0.0 (line :: lines) with
        | none => ⟨500, refusal "Invalid order data provided"⟩
        | some total =>
          ⟨201, Json.compact (.record [("order_id", .text s!"order-{g.orders.length}"),
            ("status", .text "PENDING"), ("total_amount", .float total)])⟩
      | _ => ⟨400, refusal "Invalid request"⟩

/-- Keeps an order. -/
def keep (g : MemoryGateway) (order : Json) : MemoryGateway :=
  { g with orders := g.orders ++ [order] }

/-- The value of a reply that says that the request was served. -/
def served? (r : Reply) : Except GatewayError Json :=
  if !isServed r.status then .error (.status r.status r.body)
  else
    match Json.read? r.body with
    | some value => .ok value
    | none => .error (.decode "the body is no JSON text")

/-- Takes a value sent to an endpoint; only orders are served. -/
def post (endpoint : String) (payload : Json) (g : MemoryGateway) :
    Except GatewayError Json × MemoryGateway :=
  if endpoint = Endpoint.orders then (served? (g.reply payload), g.keep payload)
  else if endpoint = Endpoint.register then
    (.error (.status 400 (refusal "use register_restaurant")), g)
  else (.error (.status 404 "404 page not found"), g)

/-- Takes an order. -/
def place (order : Order) (g : MemoryGateway) : Except GatewayError Reply × MemoryGateway :=
  let value := order.toJson.sorted
  (.ok (g.reply value), g.keep value)

instance : Gateway MemoryGateway where
  isHealthy g := (g.healthy, g)
  register := register
  list := list
  post := post
  place := place

end MemoryGateway

end LunchRush
