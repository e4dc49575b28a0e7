import LunchRush.Json.Value
/-!
# Outcomes of orders

What became of one attempt to place an order.
-/

namespace LunchRush

/-- What became of an attempt. -/
inductive Outcome where
  | success (status : Nat)
  /-- There is no status when no answer came. -/
  | failure (status : Option Nat) (body : String)
  /-- Nothing was sent. -/
  | skipped
deriving DecidableEq, Repr

namespace Outcome

def isSuccess : Outcome → Bool
  | .success _ => true
  | _ => false

/-- The status of the answer. -/
def status? : Outcome → Option Nat
  | .success status => some status
  | .failure status _ => status
  | .skipped => none

/-- Whether an order went out. -/
def isSent : Outcome → Bool
  | .skipped => false
  | _ => true

def toJson : Outcome → Json
  | .success status => .record [("outcome", .text "success"), ("status", .ofNat status)]
  | .failure status body =>
    .record [("outcome", .text "failure"), ("status", .ofOption .ofNat status), ("body", .text body)]
  | .skipped => .record [("outcome", .text "skipped")]

end Outcome

/-- Whether a status is among the accepted ones. -/
def isAccepted (accepted : List Nat) (status : Nat) : Bool := accepted.contains status

end LunchRush
