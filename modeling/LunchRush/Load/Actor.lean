import LunchRush.Gateway.Basic
import LunchRush.Generate.Order
import LunchRush.Load.Outcome
import LunchRush.Log
import LunchRush.Random.ChaCha
import LunchRush.Random.Real
import LunchRush.Time.Duration
/-!
# Actors

An actor is one simulated user with a generator of its own. What it draws depends on the fixtures
and on its generator alone, so no answer of the gateway changes which orders come next.
-/

namespace LunchRush

/-- What all actors of a run share. -/
structure Traffic where
  /-- The fixtures that can be used. -/
  fixtures : List Fixture
  customer : CustomerId
  /-- The statuses that count as a success. -/
  accepted : List Nat
  seed : Option UInt64
deriving DecidableEq, Repr

namespace Traffic

/-- The customer who orders unless another one is named. -/
def defaultCustomer : CustomerId := ⟨"46b0302c-b7fb-4ee9-ba67-58cbe868be4c"⟩

def defaultAccepted : List Nat := [200, 201]

/-- The seed of an actor: the seeds of the actors of a run follow one another. -/
def actorSeed (seed : Option UInt64) (index : Nat) : Option UInt64 :=
  seed.map (· + UInt64.ofNat index)

/-- The traffic at the usable fixtures of a document. -/
def ofDocument (d : Document) (customer : CustomerId) (accepted : List Nat) (seed : Option UInt64) :
    Traffic × List Event :=
  let usable := d.usable
  let dropped := d.restaurants.length - usable.length
  (⟨usable, customer, accepted, seed⟩, if 0 < dropped then [.fixturesIgnored dropped] else [])

end Traffic

/-- A simulated user. -/
structure Actor (σ : Type) where
  index : Nat
  generator : σ
deriving Repr

namespace Actor

/-- The actor of a number. Without a seed it draws from `entropy`. -/
def ofIndex (t : Traffic) (entropy : UInt64) (index : Nat) : Actor Random.ChaCha :=
  ⟨index, Random.ChaCha.ofSeed ((Traffic.actorSeed t.seed index).getD entropy)⟩

variable {σ γ : Type} [Random.Source σ]

/-- The next order, if there is a fixture to order from. -/
def drawOrder (t : Traffic) : Random.Draw σ (Option (Except OrderRefused Order)) := do
  match ← Random.index t.fixtures.length with
  | none => return none
  | some i =>
    match t.fixtures[i]? with
    | none => return none
    | some f => return some (← Generate.orderAt t.customer f)

/-- What an answer makes of an order, and what is logged. -/
def classify (t : Traffic) (index : Nat) : Except GatewayError Reply → Outcome × List Event
  | .ok reply =>
    if isAccepted t.accepted reply.status then (.success reply.status, [])
    else
      (.failure (some reply.status) reply.body, [.orderRejected index reply.status reply.body])
  | .error e => (.failure e.status? e.message, [.orderNotDelivered index e.message])

/-- What came of an attempt to place an order. -/
structure Placed (σ γ : Type) where
  outcome : Outcome
  events : List Event
  actor : Actor σ
  gateway : γ

/-- Places the next order. -/
def place [Gateway γ] (t : Traffic) (a : Actor σ) (gateway : γ) : Except Fault (Placed σ γ) := do
  let (drawn, generator) ← drawOrder t a.generator
  let a := { a with generator }
  match drawn with
  | none => return ⟨.skipped, [], a, gateway⟩
  | some (.error e) => return ⟨.skipped, [.orderNotBuilt a.index e.message], a, gateway⟩
  | some (.ok order) =>
    let (answer, gateway) := Gateway.place order gateway
    let (outcome, events) := classify t a.index answer
    return ⟨outcome, events, a, gateway⟩

/-- A time to think between two bounds. Where they are equal nothing is drawn. There is none when
the seconds that are drawn are too many for a duration. -/
def drawThinkTime (min max : Duration) : Random.Draw σ (Option Duration) := do
  if max ≤ min then return some min
  else return Duration.ofSeconds? (← Random.uniform min.toSeconds max.toSeconds)

/-- The next time to think. -/
def think (a : Actor σ) (min max : Duration) : Except Fault Duration × Actor σ :=
  match drawThinkTime min max a.generator with
  | .error fault => (.error fault, a)
  | .ok (none, generator) => (.error .noDuration, { a with generator })
  | .ok (some wait, generator) => (.ok wait, { a with generator })

end Actor

end LunchRush
