import LunchRush.Generate.Restaurant
import LunchRush.Seeding.Report
/-!
# Seeding

Seeding makes sure that there are at least as many usable restaurants as asked for: those that the
gateway lists are kept, and the shortfall is registered, one restaurant after the other. The
document is written last, so a run that fails before has left it alone.
-/

namespace LunchRush

/-- Where registrations come from. -/
class Supply (σ : Type) where
  next : σ → Registration × σ

/-- Registrations that are drawn. A draw that goes on for ever gives none, and a run that asks for it
does not come back; the second case only stands for it, as no rule is ever broken by what is drawn. -/
instance {σ : Type} [Random.Source σ] : Supply σ where
  next s :=
    match Generate.registration s with
    | .ok drawn => drawn
    | .error _ => (⟨"", "", "", 0.0, 0.0, []⟩, s)

namespace Seeding

/-- A place where restaurants are registered and fixtures are kept, and what has been logged. -/
structure Site (γ : Type) where
  gateway : γ
  files : FileTree
  log : List Event := []

/-- Somebody who seeds: the store, the supply of registrations, and how far the last run came. -/
structure Seeder (σ : Type) where
  store : Store
  supply : σ
  config : Config
  state : State := .unstarted

/-- A seeder at a site. -/
structure Run (σ γ : Type) where
  seeder : Seeder σ
  site : Site γ

namespace Run

variable {σ γ : Type}

/-- Logs some events. -/
def say (r : Run σ γ) (events : List Event) : Run σ γ :=
  { r with site := { r.site with log := r.site.log ++ events } }

/-- Goes on to a state. -/
def move (r : Run σ γ) (next : State) : Run σ γ :=
  let r := r.say [.stateChanged r.seeder.state next]
  { r with seeder := { r.seeder with state := next } }

/-- Puts the gateway in the state after a call. -/
def withGateway (r : Run σ γ) (gateway : γ) : Run σ γ :=
  { r with site := { r.site with gateway } }

/-- Ends a run that failed. -/
def fail {α : Type} (r : Run σ γ) (e : Error) : Except Error α × Run σ γ :=
  (.error e, r.move (.aborted e.abort))

variable [Gateway γ]

/-- Whether the gateway is ready. -/
def checkHealth (r : Run σ γ) : Bool × Run σ γ :=
  let (healthy, gateway) := Gateway.isHealthy r.site.gateway
  (healthy, r.withGateway gateway)

/-- The fixtures of the restaurants that are listed and can be used. -/
def discover (r : Run σ γ) : Except GatewayError (List Fixture) × Run σ γ :=
  let (answer, gateway) := Gateway.list r.seeder.config.area r.site.gateway
  let r := r.withGateway gateway
  match answer with
  | .ok listed =>
    let found := listed.filterMap fun restaurant => (Fixture.ofRestaurant restaurant).toOption
    (.ok found, r.say [.discovered listed.length found.length])
  | .error e =>
    match r.seeder.config.policy with
    | .bestEffort => (.ok [], r.say [.listingFailed e.message])
    | .required => (.error e, r)

/-- `count` attempts to register a restaurant, the first of them with number `first`. -/
def attempts [Supply σ] : (count first : Nat) → σ → γ → List Attempt × σ × γ
  | 0, _, supply, gateway => ([], supply, gateway)
  | count + 1, first, supply, gateway =>
    let (registration, supply) := Supply.next supply
    let (answer, gateway) := Gateway.register registration gateway
    let (later, supply, gateway) := attempts count (first + 1) supply gateway
    (⟨first, registration.name, answer⟩ :: later, supply, gateway)

/-- Registers `needed` restaurants. -/
def topUp [Supply σ] (r : Run σ γ) (needed : Nat) : List Attempt × Run σ γ :=
  let (made, supply, gateway) := attempts needed 1 r.seeder.supply r.site.gateway
  let r := { r.withGateway gateway with seeder := { r.seeder with supply } }
  (made, r.say (made.flatMap (Attempt.events r.seeder.config.progressEvery needed)))

/-- Writes the document. -/
def save (r : Run σ γ) (d : Document) : Except StoreError Unit × Run σ γ :=
  let (result, files) := r.seeder.store.save d r.site.files
  let r := { r with site := { r.site with files } }
  match result with
  | .ok events => (.ok (), r.say events)
  | .error e => (.error e, r)

/-- What a run answers after its document is written. -/
def report (target discovered : Nat) (outcomes : List Outcome) (persisted : Nat) : Report :=
  let registered := (outcomes.filter Outcome.isRegistered).length
  { target, discovered, persisted, outcomes, registered
    attempted := outcomes.length
    failed := outcomes.length - registered
    state := .persisted }

/-- Writes the fixtures that were found and those that the attempts brought. -/
def finish (r : Run σ γ) (target : Nat) (found : List Fixture) (made : List Attempt) :
    Except Error Report × Run σ γ :=
  let outcomes := made.map Attempt.outcome
  let fixtures := found ++ made.filterMap Attempt.fixture?
  let report := report target found.length outcomes fixtures.length
  if fixtures.isEmpty then r.fail (.nothingUsable report.attempted report.failed)
  else
    match r.save ⟨fixtures⟩ with
    | (.error e, r) => r.fail (.store e)
    | (.ok (), r) =>
      let r := r.move .persisted
      (.ok report, r.say [.documentWritten r.seeder.store.path fixtures.length report.registered
        report.failed])

/-- Makes sure that there are `target` usable restaurants, and writes them. -/
def ensure [Supply σ] (r : Run σ γ) (target : Nat) : Except Error Report × Run σ γ :=
  match (r.move .checkingAvailability).checkHealth with
  | (false, r) => r.fail .unavailable
  | (true, r) =>
    match (r.move .discovering).discover with
    | (.error e, r) => r.fail (.discoveryFailed e)
    | (.ok found, r) =>
      let needed := target - found.length
      let r := (r.move .toppingUp).say [.reconciling target found.length needed]
      let (made, r) := r.topUp needed
      r.finish target found made

end Run

end Seeding

end LunchRush
