import LunchRush.Gateway.Scripted
import LunchRush.Proofs.Load.Deeds
/-!
# Which orders come next

Picking a fixture, drawing an order and drawing a time to think share one generator, and nothing else
decides what a user sends: `orderAt?` is the order with a number of a generator, found without a
gateway, a clock or other users. The orders of a user are the first ones of its generator
(`Takes.orders`), so a run with a seed sends the same orders whatever it is answered
(`orders_reproducible`).
-/

namespace LunchRush.Load

open LunchRush.Random (Source)

/-- The orders of some calls. -/
def ordersIn (calls : List Call) : List Order := calls.filterMap Call.order?

variable {σ γ : Type} [Source σ] [Gateway γ] {t : Traffic} {c : LoadConfig} {deadline now : Instant}
  {during : Instant → Prop}

/-! ## The orders of a generator -/

/-- The order that a generator draws, and the generator after it. -/
def drawn? (t : Traffic) (generator : σ) : Option (Order × σ) :=
  match Actor.drawOrder t generator with
  | .ok (some (.ok order), generator) => some (order, generator)
  | _ => none

/-- The generator after a time to think. -/
def rested (min max : Duration) (generator : σ) : σ :=
  match Actor.drawThinkTime min max generator with
  | .ok (_, generator) => generator
  | .error _ => generator

/-- The order with a number, counted from zero, if the generator comes to it. -/
def orderAt? (t : Traffic) (min max : Duration) : Nat → σ → Option Order
  | 0, generator => (drawn? t generator).map Prod.fst
  | number + 1, generator =>
    (drawn? t generator).bind fun drawn => orderAt? t min max number (rested min max drawn.2)

namespace User

variable {u u' : User σ} {s s' : Shared (Recorded γ)} {deeds : List Deed}

/-- The orders that a user has still to send. After an order it thinks first. -/
def upcoming (t : Traffic) (c : LoadConfig) (u : User σ) (number : Nat) : Option Order :=
  match u.phase with
  | .recording _ _ => orderAt? t c.minWait c.maxWait number (rested c.minWait c.maxWait u.actor.generator)
  | _ => orderAt? t c.minWait c.maxWait number u.actor.generator

/-- The order that is drawn is the next one, and those after the next time to think come after it. -/
theorem upcoming_of_drawn {order : Order} {generator : σ} {wake : Instant} (hp : u.phase = .deciding wake)
    (hd : Actor.drawOrder t u.actor.generator = .ok (some (.ok order), generator)) :
    u.upcoming t c 0 = some order ∧ ∀ number, u.upcoming t c (number + 1) =
      orderAt? t c.minWait c.maxWait number (rested c.minWait c.maxWait generator) := by
  have hdrawn : drawn? t u.actor.generator = some (order, generator) := by
    unfold drawn?
    rw [hd]
  constructor
  · simp [upcoming, hp, orderAt?, hdrawn]
  · intro number
    simp [upcoming, hp, orderAt?, hdrawn]

/-- A time to think leaves the upcoming orders as they are. -/
theorem upcoming_of_rested {outcome : Outcome} {placed : Instant} {wait : Duration} {generator : σ}
    (hp : u.phase = .recording outcome placed)
    (hd : Actor.drawThinkTime c.minWait c.maxWait u.actor.generator = .ok (some wait, generator)) :
    u.upcoming t c = fun number => orderAt? t c.minWait c.maxWait number generator := by
  have hrested : rested c.minWait c.maxWait u.actor.generator = generator := by
    unfold rested
    rw [hd]
  funext number
  simp [upcoming, hp, hrested]

theorem upcoming_of_thinking {wait : Duration} {wake : Instant} (hp : u.phase = .thinking wait) :
    u.upcoming t c = upcoming t c { u with phase := .deciding wake } := by
  funext number
  simp [upcoming, hp]

/-- A user sends its upcoming orders, from the first one on. -/
theorem Takes.orders (h : u.Takes γ t c deadline during deeds u') :
    (ordersIn (callsIn deeds)).map some =
      (List.range (ordersIn (callsIn deeds)).length).map (u.upcoming t c) := by
  induction h with
  | rest u => rfl
  | @step now s s' u u' u'' deed later _ hstep hlater ih =>
    -- where no order can follow there is nothing to show
    have hnone : callsIn later = [] → callsIn deed.toList = [] →
        (ordersIn (callsIn (deed.toList ++ later))).map some =
          (List.range (ordersIn (callsIn (deed.toList ++ later))).length).map (u.upcoming t c) := by
      intro hl hd
      rw [callsIn_append, hl, hd]
      rfl
    cases hstep with
    | asleep hp | stopped hp => exact ih
    | finished hp | lost hp => exact hnone (hlater.stopped rfl) rfl
    | starved _ _ _ hnil => exact hnone (hlater.silent hnil) rfl
    | @ordered wake order taken hp _ _ _ hd =>
      obtain ⟨hfirst, hrest⟩ := upcoming_of_drawn (c := c) hp hd
      change (order :: ordersIn (callsIn later)).map some =
        (List.range (order :: ordersIn (callsIn later)).length).map (u.upcoming t c)
      rw [List.length_cons, List.range_succ_eq_map, List.map_cons, List.map_cons, hfirst, List.map_map,
        ih]
      refine congrArg (some order :: ·) (List.map_congr_left ?_)
      intro number _
      exact (hrest number).symm
    | gaveUp hp => exact hnone (hlater.stopped rfl) rfl
    | thought hp _ hd =>
      rw [upcoming_of_rested hp hd]
      exact ih
    | faulted hp => exact hnone (hlater.stopped rfl) rfl
    | laidDown hp =>
      rw [upcoming_of_thinking hp]
      exact ih

end User

/-! ## Runs with a seed -/

theorem eq_of_map_some {orders : List Order} {f : Nat → Option Order}
    (h : orders.map some = (List.range orders.length).map f) (default : Order) :
    orders = (List.range orders.length).map fun number => (f number).getD default := by
  have horders := congrArg (List.map (·.getD default)) h
  simpa [Function.comp_def] using horders

/-- What is answered plays no part in an order. -/
theorem orderAt?_congr (t t' : Traffic) (hf : t.fixtures = t'.fixtures) (hc : t.customer = t'.customer)
    (min max : Duration) (number : Nat) : ∀ generator : σ,
    orderAt? t min max number generator = orderAt? t' min max number generator := by
  have hdrawn : ∀ generator : σ, drawn? t generator = drawn? t' generator := by
    intro generator
    cases t
    cases t'
    cases hf
    cases hc
    rfl
  induction number with
  | zero =>
    intro generator
    rw [orderAt?, orderAt?, hdrawn]
  | succ number ih =>
    intro generator
    rw [orderAt?, orderAt?, hdrawn]
    exact congrArg _ (funext fun drawn => ih _)

/-- The orders of a user: all that the seed, the fixtures, the customer and the bounds of the time to
think make of them. -/
def sequenceOf (d : Document) (customer : CustomerId) (seed : UInt64) (user : Nat)
    (min max : Duration) (number : Nat) : Order :=
  (orderAt? (Traffic.ofDocument d customer [] none).1 min max number
    (Random.ChaCha.ofSeed (seed + UInt64.ofNat user))).getD ⟨customer, ⟨""⟩, []⟩

/-- What a seed does not settle: what the gateway answers, which statuses are accepted, the entropy of
users without a seed, when the run ends, and how the users take their steps. -/
structure Circumstances (γ : Type) where
  gateway : γ
  accepted : List Nat
  entropy : UInt64
  deadline : Instant
  schedule : List Tick

namespace Circumstances

variable (w : Circumstances γ) (d : Document) (customer : CustomerId) (seed : UInt64) (c : LoadConfig)

def traffic : Traffic := (Traffic.ofDocument d customer w.accepted (some seed)).1

/-- The users at a gateway that has got no call yet. -/
def start : Field Random.ChaCha (Recorded γ) :=
  .start (actors (w.traffic d customer seed) c w.entropy) ⟨w.gateway, []⟩

/-- What the users do. -/
def deeds : List (Nat × Deed) :=
  (w.start d customer seed c).deeds (w.traffic d customer seed) c w.deadline w.schedule

/-- The orders that the gateway gets. -/
def orders : List Order :=
  ordersIn ((w.start d customer seed c).run (w.traffic d customer seed) c w.deadline
    w.schedule).shared.gateway.calls

/-- The orders that one user sends. -/
def ordersOf (user : Nat) : List Order := ordersIn (callsIn (deedsOf user (w.deeds d customer seed c)))

omit [Gateway γ] in
theorem usable : ∀ f ∈ (w.traffic d customer seed).fixtures, f.isUsable = true :=
  Traffic.ofDocument_isUsable d customer w.accepted (some seed)

theorem users : ∀ entry ∈ w.deeds d customer seed c, entry.1 < c.users := by
  have hlength : (w.start d customer seed c).users.length = c.users := by
    simp [start, Field.start, actors]
  have hdeeds := (run_users (w.traffic d customer seed) c w.deadline w.schedule
    (w.start d customer seed c)).2
  rwa [hlength] at hdeeds

/-- The orders that a user sends are those of its sequence, from the first one on. -/
theorem ordersOf_eq (user : Nat) :
    w.ordersOf d customer seed c user = (List.range (w.ordersOf d customer seed c user).length).map
      (sequenceOf d customer seed user c.minWait c.maxWait) := by
  by_cases hlt : user < c.users
  · have hget : (w.start d customer seed c).users[user]? =
        some ⟨Actor.ofIndex (w.traffic d customer seed) w.entropy user, 0, .deciding 0⟩ := by
      simp [start, Field.start, actors, hlt]
    obtain ⟨u', -, htakes⟩ := run_takes c w.deadline (w.usable d customer seed) (fun _ => True)
      w.schedule _ (fun _ _ => trivial) hget
    refine (eq_of_map_some htakes.orders ⟨customer, ⟨""⟩, []⟩).trans (List.map_congr_left ?_)
    intro number _
    have hsame := orderAt?_congr (w.traffic d customer seed)
      (Traffic.ofDocument d customer [] none).1 rfl rfl c.minWait c.maxWait number
      (Random.ChaCha.ofSeed (seed + UInt64.ofNat user))
    exact congrArg (·.getD ⟨customer, ⟨""⟩, []⟩) hsame
  · have hnone : deedsOf user (w.deeds d customer seed c) = [] := by
      unfold deedsOf
      rw [List.map_eq_nil_iff, List.filter_eq_nil_iff]
      intro entry he
      have hentry := w.users d customer seed c entry he
      simp only [decide_eq_true_eq]
      omega
    unfold ordersOf
    rw [hnone]
    rfl

/-- Where every user has sent so many orders, the gateway has got so many of every user's. -/
theorem orders_perm {count : Nat}
    (h : ∀ user < c.users, (w.ordersOf d customer seed c user).length = count) :
    (w.orders d customer seed c).Perm ((List.range c.users).flatMap fun user =>
      (List.range count).map (sequenceOf d customer seed user c.minWait c.maxWait)) := by
  have hperm := (calls_perm (w.users d customer seed c)).filterMap Call.order?
  rw [List.filterMap_flatMap] at hperm
  unfold orders
  rw [run_calls (w.usable d customer seed)]
  refine hperm.trans ?_
  rw [List.flatMap_congr]
  intro user hm
  have horders := w.ordersOf_eq d customer seed c user
  rw [h user (List.mem_range.1 hm)] at horders
  exact horders

end Circumstances

/-- The orders that come first in a sequence. -/
def IsInitial (orders : List Order) (sequence : Nat → Order) : Prop :=
  ∃ count, orders = (List.range count).map sequence

/-- What a seed, a document and a customer settle about the orders of a run. -/
structure Reproducible (d : Document) (customer : CustomerId) (seed : UInt64) : Prop where
  /-- For every user and all bounds of the time to think there is one sequence of orders. Whatever the
  gateway answers and the other users do, the user sends the first orders of it. -/
  initial : ∀ (user : Nat) (min max : Duration), ∃ sequence : Nat → Order,
    ∀ (γ : Type) [Gateway γ] (w : Circumstances γ) (users : Nat) (duration : Duration)
      (cap : Option Nat),
      IsInitial (w.ordersOf d customer seed ⟨users, duration, cap, min, max⟩ user) sequence
  /-- Two runs in which every user comes to the cap send the same orders, each as often. -/
  same : ∀ (γ γ' : Type) [Gateway γ] [Gateway γ'] (w : Circumstances γ) (w' : Circumstances γ')
    (c : LoadConfig) (cap : Nat), c.maxRequests = some cap →
    (∀ user < c.users, (w.ordersOf d customer seed c user).length = cap) →
    (∀ user < c.users, (w'.ordersOf d customer seed c user).length = cap) →
    (w.orders d customer seed c).Perm (w'.orders d customer seed c)

/-- A seed settles which orders are sent. -/
theorem orders_reproducible (d : Document) (customer : CustomerId) (seed : UInt64) :
    Reproducible d customer seed := by
  constructor
  case initial =>
    intro user min max
    refine ⟨sequenceOf d customer seed user min max, ?_⟩
    intro γ _ w users duration cap
    exact ⟨_, w.ordersOf_eq d customer seed ⟨users, duration, cap, min, max⟩ user⟩
  case same =>
    intro γ γ' _ _ w w' c cap _ h h'
    exact (w.orders_perm d customer seed c h).trans (w'.orders_perm d customer seed c h').symm

/-- Circumstances of two users, for whom a gateway has its answers ready. -/
def facing (answers : List (Except GatewayError Reply)) (schedule : List Tick) :
    Circumstances ScriptedGateway :=
  ⟨⟨true, .ok [], [], answers⟩, [200, 201], 0, 100, schedule⟩

/-- A fixture with two items. -/
def soupAndStew : Document := ⟨[⟨⟨"r1"⟩, [⟨⟨"i1"⟩, "Soup", "", 60.0⟩, ⟨⟨"i2"⟩, "Stew", "", 75.5⟩]⟩]⟩

theorem orders_reproducible_facing :
    ((facing [.ok ⟨201, ""⟩, .ok ⟨201, ""⟩] [⟨0, 1⟩, ⟨1, 2⟩, ⟨1, 3⟩, ⟨0, 4⟩]).orders soupAndStew ⟨"c"⟩ 42
        ⟨2, .ofSecs 30, some 1, .zero, .zero⟩).Perm
      ((facing [.ok ⟨500, ""⟩] [⟨1, 1⟩, ⟨0, 2⟩]).orders soupAndStew ⟨"c"⟩ 42
        ⟨2, .ofSecs 30, some 1, .zero, .zero⟩) ∧
      ((facing [.ok ⟨500, ""⟩] [⟨1, 1⟩, ⟨0, 2⟩]).orders soupAndStew ⟨"c"⟩ 42
        ⟨2, .ofSecs 30, some 1, .zero, .zero⟩).length = 2 := by
  refine ⟨(orders_reproducible soupAndStew ⟨"c"⟩ 42).same _ _ _ _ _ 1 rfl ?_ ?_, ?_⟩
  · decide +kernel
  · decide +kernel
  · decide +kernel

end LunchRush.Load
