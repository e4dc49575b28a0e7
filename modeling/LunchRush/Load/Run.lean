import LunchRush.Load.Actor
import LunchRush.Load.Config
import LunchRush.Load.Summary
/-!
# Load runs

Every user goes through the same turns: it decides whether to go on, places an order, hands the
outcome to the recorder, and sleeps for as long as it thinks, but not past the deadline. Users meet
only at the gateway and at the recorder, and a schedule says in which order they take their steps and
what the clock shows at each. Whatever the schedule, a step counts an attempt once.
-/

namespace LunchRush.Load

open LunchRush.Random (Source)

/-- Nanoseconds since the clock started. -/
abbrev Instant := Nat

/-- A clock cannot show an instant of 2^63 seconds or more. -/
def Instant.limit : Nat := Nat.pow 2 63 * Nat.pow 10 9

/-- When a run that starts at `now` ends. -/
def deadline? (now : Instant) (duration : Duration) : Option Instant :=
  if now + duration.nanos < Instant.limit then some (now + duration.nanos) else none

/-- What a user does next. -/
inductive Phase where
  /-- It is asleep until an instant, and then decides whether to place another order. -/
  | deciding (wake : Instant)
  /-- It hands over the outcome of the order that it placed at an instant. -/
  | recording (outcome : Outcome) (placed : Instant)
  /-- It goes to sleep for the time that it thinks. -/
  | thinking (wait : Duration)
  /-- It has stopped, for good or because of a fault; with a draw that never ends it takes no other
  step either. -/
  | stopped (fault : Option Fault)
deriving DecidableEq, Repr

def Phase.isStopped : Phase → Bool
  | .stopped _ => true
  | _ => false

/-- A user and how far it has come. -/
structure User (σ : Type) where
  actor : Actor σ
  sent : Nat := 0
  phase : Phase := .deciding 0

/-- What users share. -/
structure Shared (γ : Type) where
  gateway : γ
  summary : Summary

variable {σ γ : Type} [Source σ] [Gateway γ]

/-- Whether the user has sent as many orders as it may. -/
def User.atCap (c : LoadConfig) (u : User σ) : Bool := c.maxRequests.any (· ≤ u.sent)

def User.stop (u : User σ) (fault : Option Fault) : User σ := { u with phase := .stopped fault }

/-- Decides whether to go on, and if so places an order. -/
def User.decide (t : Traffic) (c : LoadConfig) (deadline now : Instant) (u : User σ) (s : Shared γ) :
    User σ × Shared γ :=
  if deadline ≤ now || u.atCap c then (u.stop none, s)
  else
    match u.actor.place t s.gateway with
    | .error fault => (u.stop (some fault), s)
    | .ok placed =>
      ({ u with actor := placed.actor, phase := .recording placed.outcome now },
        { s with gateway := placed.gateway })

/-- Hands over an outcome. A user who had nothing to send stops; another one draws a time to think. -/
def User.hand (c : LoadConfig) (now : Instant) (outcome : Outcome) (placed : Instant) (u : User σ)
    (s : Shared γ) : User σ × Shared γ :=
  let s := { s with summary := s.summary.record outcome (.ofNanos (now - placed)) }
  if outcome = .skipped then (u.stop none, s)
  else
    let u := { u with sent := u.sent + 1 }
    match u.actor.think c.minWait c.maxWait with
    | (.error fault, actor) => ({ u with actor }.stop (some fault), s)
    | (.ok wait, actor) => ({ u with actor, phase := .thinking wait }, s)

/-- When a user who goes to sleep at `now` wakes up: after its wait, or at the deadline if that is
sooner. -/
def wakeAt (deadline now : Instant) (wait : Duration) : Instant := min (now + wait.nanos) deadline

/-- The next step of a user. -/
def User.step (t : Traffic) (c : LoadConfig) (deadline now : Instant) (u : User σ) (s : Shared γ) :
    User σ × Shared γ :=
  match u.phase with
  | .deciding wake => if now < wake then (u, s) else u.decide t c deadline now s
  | .recording outcome placed => u.hand c now outcome placed s
  | .thinking wait => ({ u with phase := .deciding (wakeAt deadline now wait) }, s)
  | .stopped _ => (u, s)

/-- All users and what they share. -/
structure Field (σ γ : Type) where
  users : List (User σ)
  shared : Shared γ

/-- A step of one user at a reading of the clock. -/
structure Tick where
  user : Nat
  now : Instant
deriving DecidableEq, Repr

/-- The step that a schedule asks for. -/
def Field.step (t : Traffic) (c : LoadConfig) (deadline : Instant) (f : Field σ γ) (tick : Tick) :
    Field σ γ :=
  match f.users[tick.user]? with
  | none => f
  | some u =>
    let (u, shared) := u.step t c deadline tick.now f.shared
    ⟨f.users.set tick.user u, shared⟩

/-- The steps of a schedule, one after the other. -/
def Field.run (t : Traffic) (c : LoadConfig) (deadline : Instant) (f : Field σ γ)
    (schedule : List Tick) : Field σ γ :=
  schedule.foldl (Field.step t c deadline) f

/-- The users at the start of a run. -/
def Field.start (actors : List (Actor σ)) (gateway : γ) : Field σ γ :=
  ⟨actors.map fun actor => { actor }, ⟨gateway, .new actors.length⟩⟩

/-- The faults that stopped users. -/
def Field.faults (f : Field σ γ) : List Fault :=
  f.users.filterMap fun u => match u.phase with
    | .stopped fault => fault
    | _ => none

/-- How long an order is taken to last where no clock is read. -/
def turnNanos : Nat := 1000

/-- A turn of a user: it places an order, hands the outcome over and goes to sleep. -/
def User.turn (t : Traffic) (c : LoadConfig) (deadline now : Instant) (u : User σ) (s : Shared γ) :
    User σ × Shared γ :=
  let (u, s) := u.step t c deadline now s
  let (u, s) := u.step t c deadline (now + turnNanos) s
  u.step t c deadline (now + turnNanos) s

/-- When a user takes its next step, if it is later than `now`. -/
def Phase.next (now : Instant) : Phase → Instant
  | .deciding wake => max now wake
  | _ => now

/-- The turns of one user until it stops, on a clock that only its own turns move on. -/
def User.runAlone (t : Traffic) (c : LoadConfig) (deadline : Instant) :
    (fuel : Nat) → Instant → User σ → Shared γ → User σ × Shared γ
  | 0, _, u, s => (u, s)
  | fuel + 1, now, u, s =>
    if u.phase.isStopped then (u, s)
    else
      let (u, s) := u.turn t c deadline now s
      runAlone t c deadline fuel (u.phase.next (now + turnNanos)) u s

/-- The turns that a user can take before the deadline: each moves the clock on. -/
def turns (c : LoadConfig) : Nat := c.duration.nanos / turnNanos + 2

/-- The users one after the other. -/
def runInTurn (t : Traffic) (c : LoadConfig) (deadline now : Instant) :
    List (User σ) → Shared γ → List (User σ) × Shared γ
  | [], s => ([], s)
  | u :: users, s =>
    let (u, s) := u.runAlone t c deadline (turns c) now s
    let (users, s) := runInTurn t c deadline now users s
    (u :: users, s)

/-- Why a run has no summary. -/
inductive Refusal where
  | invalid (e : LoadError)
  | fault (f : Fault)
deriving DecidableEq, Repr

/-- The summary of a run whose users have stopped. A user who draws for ever keeps the run from ending,
whatever becomes of the others. -/
def Field.summary (f : Field σ γ) (elapsed : Duration) : Except Refusal Summary :=
  if .endless ∈ f.faults then .error (.fault .endless)
  else match f.faults with
    | fault :: _ => .error (.fault fault)
    | [] => (f.shared.summary.finish elapsed).mapError .fault

/-- A run whose users take their turns one after the other. -/
def run (t : Traffic) (c : LoadConfig) (actors : List (Actor σ)) (gateway : γ) :
    Except Refusal Summary × γ :=
  match c.check with
  | .error e => (.error (.invalid e), gateway)
  | .ok () =>
    match deadline? 0 c.duration with
    | none => (.error (.fault .clockOverflow), gateway)
    | some deadline =>
      let start := Field.start actors gateway
      let (users, shared) := runInTurn t c deadline 0 start.users start.shared
      (Field.summary ⟨users, shared⟩ .zero, shared.gateway)

/-- The actors of a run. -/
def actors (t : Traffic) (c : LoadConfig) (entropy : UInt64) : List (Actor Random.ChaCha) :=
  (List.range c.users).map (Actor.ofIndex t entropy)

end LunchRush.Load
