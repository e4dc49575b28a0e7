import LunchRush.Files.Store
import LunchRush.Seeding.Attempt
/-!
# Reports of seeding

What a run is told, what it answers when the fixtures are written, and why it may fail.
-/

namespace LunchRush.Seeding

/-- What is done when the existing restaurants cannot be listed. -/
inductive Policy where
  /-- The run goes on as if there were none. -/
  | bestEffort
  | required
deriving DecidableEq, Repr

def Policy.key : Policy → String
  | .bestEffort => "best_effort"
  | .required => "required"

/-- What a run is told. -/
structure Config where
  area : Area := .discovery
  policy : Policy := .bestEffort
  /-- After how many attempts progress is logged. -/
  progressEvery : Nat := 5
  seed : Option UInt64 := none
deriving DecidableEq, Repr

/-- A run whose registrations are always the same. -/
def Config.testing : Config := { progressEvery := 1, seed := some 0x5eed }

/-- What a run answers. -/
structure Report where
  target : Nat
  /-- The usable restaurants that were there before. -/
  discovered : Nat
  attempted : Nat
  registered : Nat
  failed : Nat
  /-- The fixtures in the document. -/
  persisted : Nat
  outcomes : List Outcome
  state : State
deriving DecidableEq, Repr

def Report.toJson (r : Report) : Json :=
  .record [("target", .ofNat r.target), ("discovered", .ofNat r.discovered),
    ("attempted", .ofNat r.attempted), ("registered", .ofNat r.registered),
    ("failed", .ofNat r.failed), ("persisted", .ofNat r.persisted),
    ("outcomes", .list (r.outcomes.map Outcome.toJson)), ("state", r.state.toJson)]

/-- Why a run failed. -/
inductive Error where
  | unavailable
  | nothingUsable (attempted failed : Nat)
  | discoveryFailed (source : GatewayError)
  | store (source : StoreError)
deriving DecidableEq, Repr

namespace Error

/-- What is said about it. -/
def message : Error → String
  | .unavailable => "gateway is not available: health check failed"
  | .nothingUsable attempted failed =>
    s!"no usable fixtures: nothing discovered and {failed} of {attempted} registrations failed"
  | .discoveryFailed source => s!"restaurant discovery failed: {source.message}"
  | .store source => source.message

/-- What is said about it and then about its causes. -/
def chain : Error → List String
  | .discoveryFailed source => [message (.discoveryFailed source), source.message]
  | .store source => source.message :: source.message :: source.causes
  | e => [e.message]

/-- The state in which a failed run ends. -/
def abort : Error → Abort
  | .unavailable => .unreachable
  | .nothingUsable _ _ => .empty
  | .discoveryFailed _ => .discoveryFailed
  | .store _ => .storeFailed

end Error

end LunchRush.Seeding
