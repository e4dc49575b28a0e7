import LunchRush.Seeding.State
import LunchRush.Violation
/-!
# Log events

What a run reports while it goes on. An event says what happened; its level, its message and its
fields follow from that.
-/

namespace LunchRush

/-- How much an event matters. -/
inductive Level where
  | debug
  | info
  | warn
  | error
deriving DecidableEq, Repr

def Level.label : Level → String
  | .debug => "DEBUG"
  | .info => "INFO"
  | .warn => "WARN"
  | .error => "ERROR"

/-- Something that happened. -/
inductive Event where
  | documentNotFound (path : String)
  | fixturesDropped (path : String) (dropped : Nat)
  | documentSaved (path : String) (restaurants : Nat)
  | stateChanged (before after : Seeding.State)
  | discovered (listed usable : Nat)
  | listingFailed (reason : String)
  | reconciling (target discovered needed : Nat)
  | answerUnusable (attempt : Nat) (reason : String)
  | registrationFailed (attempt : Nat) (name reason : String)
  | progress (attempt needed : Nat)
  | documentWritten (path : String) (restaurants registered failed : Nat)
  | fixturesIgnored (dropped : Nat)
  | orderNotBuilt (actor : Nat) (reason : String)
  | orderRejected (actor status : Nat) (body : String)
  | orderNotDelivered (actor : Nat) (reason : String)
deriving DecidableEq, Repr

namespace Event

def level : Event → Level
  | .answerUnusable _ _ | .registrationFailed _ _ _ => .error
  | .fixturesDropped _ _ | .listingFailed _ | .fixturesIgnored _ | .orderNotBuilt _ _ => .warn
  | .reconciling _ _ _ | .progress _ _ | .documentWritten _ _ _ _ => .info
  | _ => .debug

def message : Event → String
  | .documentNotFound _ => "fixture document not found"
  | .fixturesDropped _ _ => "dropped fixtures without a usable menu"
  | .documentSaved _ _ => "fixture document saved"
  | .stateChanged _ _ => "reconcile state"
  | .discovered _ _ => "discovered restaurants"
  | .listingFailed _ => "could not list existing restaurants, continuing with none"
  | .reconciling _ _ _ => "reconciling restaurant fixtures"
  | .answerUnusable _ _ => "registration returned an unusable restaurant"
  | .registrationFailed _ _ _ => "failed to register restaurant"
  | .progress attempt needed => s!"seeded {attempt}/{needed} restaurants"
  | .documentWritten _ _ _ _ => "fixture document written"
  | .fixturesIgnored _ => "ignoring fixtures that fail validation"
  | .orderNotBuilt _ _ => "could not build order, nothing sent"
  | .orderRejected _ _ _ => "order rejected"
  | .orderNotDelivered _ _ => "order not delivered"

/-- A count under a name. -/
def count (name : String) (n : Nat) : String × String := (name, toString n)

/-- What is said beside the message. -/
def fields : Event → List (String × String)
  | .documentNotFound path => [("path", path)]
  | .fixturesDropped path dropped => [("path", path), count "dropped" dropped]
  | .documentSaved path restaurants => [("path", path), count "restaurants" restaurants]
  | .stateChanged before after => [("from", before.label), ("to", after.label)]
  | .discovered listed usable => [count "listed" listed, count "usable" usable]
  | .listingFailed reason => [("error", reason)]
  | .reconciling target found needed =>
    [count "target_count" target, count "discovered" found, count "needed" needed]
  | .answerUnusable attempt reason => [count "attempt" attempt, ("error", reason)]
  | .registrationFailed attempt name reason =>
    [count "attempt" attempt, ("name", name), ("error", reason)]
  | .progress _ _ => []
  | .documentWritten path restaurants registered failed =>
    [("path", path), count "restaurants" restaurants, count "registered" registered,
      count "failed" failed]
  | .fixturesIgnored dropped => [count "dropped" dropped]
  | .orderNotBuilt actor reason => [count "actor" actor, ("error", reason)]
  | .orderRejected actor status body =>
    [count "actor" actor, count "status" status, ("body", body)]
  | .orderNotDelivered actor reason => [count "actor" actor, ("error", reason)]

end Event

end LunchRush
