import LunchRush.Area
import LunchRush.Fixture
import LunchRush.Gateway.Error
import LunchRush.Json.Value
import LunchRush.Order
import LunchRush.Registration
/-!
# Gateways

A gateway lists restaurants, registers new ones and takes orders. Anything with a state that answers
these calls is one, so a statement about a run can range over every behaviour a gateway may show.
-/

namespace LunchRush

/-- The status and the body of an answer. -/
structure Reply where
  status : Nat
  body : String
deriving DecidableEq, Repr

/-- Whether a status says that a request was served. -/
def isServed (status : Nat) : Bool := 200 ≤ status && status < 300

/-- A state that answers the calls of a client. -/
class Gateway (γ : Type) where
  /-- Whether the gateway says that it is ready. -/
  isHealthy : γ → Bool × γ
  /-- Registers a restaurant. -/
  register : Registration → γ → Except GatewayError Restaurant × γ
  /-- Lists the restaurants of an area. -/
  list : Area → γ → Except GatewayError (List Restaurant) × γ
  /-- Sends a value to an endpoint. -/
  post : (endpoint : String) → Json → γ → Except GatewayError Json × γ
  /-- Places an order; every answer is a reply, whatever its status. -/
  place : Order → γ → Except GatewayError Reply × γ

namespace Endpoint

def health : String := "/health"
def register : String := "/api/v1/restaurants/register"
def restaurants : String := "/api/v1/restaurants"
def orders : String := "/api/v1/restaurants/orders"

end Endpoint

end LunchRush
