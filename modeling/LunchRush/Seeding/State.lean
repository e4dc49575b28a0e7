import LunchRush.Json.Value
/-!
# How far seeding has come

Seeding goes through its states in order and ends in one of two ways: the fixtures are written, or
the run is aborted for one of four reasons.
-/

namespace LunchRush.Seeding

/-- Why a run was aborted. -/
inductive Abort where
  | unreachable
  | discoveryFailed
  | empty
  | storeFailed
deriving DecidableEq, Repr

/-- How far a run has come. -/
inductive State where
  | unstarted
  | checkingAvailability
  | discovering
  | toppingUp
  | persisted
  | aborted (reason : Abort)
deriving DecidableEq, Repr

/-- Whether a run has ended. -/
def State.isTerminal : State → Bool
  | .persisted => true
  | .aborted _ => true
  | _ => false

/-- The reason as it is reported. -/
def Abort.key : Abort → String
  | .unreachable => "unreachable"
  | .discoveryFailed => "discovery_failed"
  | .empty => "empty"
  | .storeFailed => "store_failed"

/-- The state as it is reported. -/
def State.toJson : State → Json
  | .unstarted => .text "unstarted"
  | .checkingAvailability => .text "checking_availability"
  | .discovering => .text "discovering"
  | .toppingUp => .text "topping_up"
  | .persisted => .text "persisted"
  | .aborted reason => .record [("aborted", .text reason.key)]

/-- The reason as it is logged. -/
def Abort.label : Abort → String
  | .unreachable => "Unreachable"
  | .discoveryFailed => "DiscoveryFailed"
  | .empty => "Empty"
  | .storeFailed => "StoreFailed"

/-- The state as it is logged. -/
def State.label : State → String
  | .unstarted => "Unstarted"
  | .checkingAvailability => "CheckingAvailability"
  | .discovering => "Discovering"
  | .toppingUp => "ToppingUp"
  | .persisted => "Persisted"
  | .aborted reason => "Aborted(" ++ reason.label ++ ")"

end LunchRush.Seeding
