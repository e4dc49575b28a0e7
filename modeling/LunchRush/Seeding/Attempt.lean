import LunchRush.Gateway.Basic
import LunchRush.Log
/-!
# Attempts to register restaurants

Everything that is said about an attempt afterwards, in the report, in the log and in the document,
follows from its number and the gateway's answer.
-/

namespace LunchRush.Seeding

/-- An attempt to register a restaurant. -/
structure Attempt where
  /-- The place among the attempts of a run, counted from one. -/
  number : Nat
  name : String
  answer : Except GatewayError Restaurant

/-- Why an attempt brought no fixture. -/
inductive Failure where
  | refused (error : GatewayError)
  | unusable (reason : Violation)
deriving DecidableEq, Repr

/-- What is reported of a failure. -/
def Failure.message : Failure → String
  | .refused error => error.message
  | .unusable reason => "unusable response: " ++ reason.message

/-- What is reported of an attempt. -/
inductive Outcome where
  | registered (attempt : Nat) (restaurant : RestaurantId) (menuItems : Nat)
  | failed (attempt : Nat) (error : String)
deriving DecidableEq, Repr

def Outcome.isRegistered : Outcome → Bool
  | .registered _ _ _ => true
  | .failed _ _ => false

def Outcome.toJson : Outcome → Json
  | .registered attempt restaurant menuItems =>
    .record [("outcome", .text "registered"), ("attempt", .ofNat attempt),
      ("restaurant_id", .text restaurant.text), ("menu_items", .ofNat menuItems)]
  | .failed attempt error =>
    .record [("outcome", .text "failed"), ("attempt", .ofNat attempt), ("error", .text error)]

namespace Attempt

/-- The fixture that an attempt brought. -/
def result (a : Attempt) : Except Failure Fixture :=
  match a.answer with
  | .error e => .error (.refused e)
  | .ok restaurant => (Fixture.ofRestaurant restaurant).mapError .unusable

def fixture? (a : Attempt) : Option Fixture :=
  match a.result with
  | .ok f => some f
  | .error _ => none

def outcome (a : Attempt) : Outcome :=
  match a.result with
  | .ok f => .registered a.number f.restaurantId f.menus.length
  | .error e => .failed a.number e.message

/-- The error that is logged for a failure. -/
def failureEvent (a : Attempt) : Failure → Event
  | .refused e => .registrationFailed a.number a.name e.message
  | .unusable reason => .answerUnusable a.number reason.message

/-- What is logged for an attempt: its failure, and the progress after every `every` attempts. -/
def events (every needed : Nat) (a : Attempt) : List Event :=
  (match a.result with
    | .ok _ => []
    | .error e => [a.failureEvent e]) ++
  if a.number % max every 1 = 0 then [.progress a.number needed] else []

end Attempt

end LunchRush.Seeding
