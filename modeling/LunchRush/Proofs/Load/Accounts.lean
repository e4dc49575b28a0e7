import LunchRush.Gateway.Scripted
import LunchRush.Proofs.Load.Deeds
/-!
# What a summary accounts for

Users run side by side and share one recorder. Whatever the schedule, the figures of the summary are
numbers of the calls that the gateway got (`summary_accounts`). A user hands over an outcome for each
of its orders before it goes on (`Takes.balance`), so once all users have stopped nothing is missing and
nothing is counted twice.
-/

namespace LunchRush

/-! ## Calls and their outcomes -/

theorem Outcome.isSent_of_ne {outcome : Outcome} (h : outcome ≠ .skipped) : outcome.isSent = true :=
  Bool.of_not_eq_false fun hs => h (Summary.eq_skipped hs)

theorem Actor.classify_isSent (t : Traffic) (index : Nat) (answer : Except GatewayError Reply) :
    (Actor.classify t index answer).1.isSent = true :=
  Outcome.isSent_of_ne (Traffic.classify_not_skipped t index answer).1

namespace Call

/-- What a call makes of an order. -/
def outcome (t : Traffic) : Call → Outcome
  | .place _ answer => (Actor.classify t 0 answer).1
  | _ => .skipped

/-- Whether an order was answered with one of some statuses. -/
def isAnsweredIn (accepted : List Nat) : Call → Bool
  | .place _ (.ok reply) => isAccepted accepted reply.status
  | _ => false

/-- The status that came with the answer, or with the error instead of one. -/
def status? : Call → Option Nat
  | .place _ (.ok reply) => some reply.status
  | .place _ (.error e) => e.status?
  | _ => none

/-- Whether an order ended in an error without a status. -/
def isLost : Call → Bool
  | .place _ (.error e) => e.status?.isNone
  | _ => false

theorem outcome_place (t : Traffic) (index : Nat) (order : Order) (answer : Except GatewayError Reply) :
    (Actor.classify t index answer).1 = (Call.place order answer).outcome t := by
  unfold outcome Actor.classify
  cases answer with
  | error e => rfl
  | ok reply =>
    dsimp only
    split <;> rfl

theorem outcome_isSent (t : Traffic) {call : Call} (h : call.isPlacement = true) :
    (call.outcome t).isSent = true := by
  cases call with
  | place order answer => exact Actor.classify_isSent t 0 answer
  | _ => cases h

theorem outcome_isSuccess (t : Traffic) (call : Call) :
    (call.outcome t).isSuccess = call.isAnsweredIn t.accepted := by
  rcases call with _ | _ | _ | _ | ⟨order, _ | reply⟩
  case place.ok =>
    unfold outcome Actor.classify isAnsweredIn
    dsimp only
    split
    · rename_i ha
      exact ha.symm
    · rename_i ha
      exact (Bool.eq_false_iff.2 ha).symm
  all_goals rfl

theorem outcome_status? (t : Traffic) (call : Call) : (call.outcome t).status? = call.status? := by
  rcases call with _ | _ | _ | _ | ⟨order, _ | reply⟩
  case place.ok =>
    unfold outcome Actor.classify
    dsimp only
    split <;> rfl
  all_goals rfl

theorem isLost_eq {call : Call} (h : call.isPlacement = true) : call.isLost = call.status?.isNone := by
  rcases call with _ | _ | _ | _ | ⟨order, _ | reply⟩
  case place.error => rfl
  case place.ok => rfl
  all_goals cases h

end Call

namespace Load

open LunchRush.Random (Source)

/-! ## One user -/

namespace User

variable {σ γ : Type} [Source σ] [Gateway γ] {t : Traffic} {c : LoadConfig} {deadline now : Instant}
  {during : Instant → Prop} {u u' : User σ} {s s' : Shared (Recorded γ)} {deed : Option Deed}
  {deeds : List Deed}

/-- The outcome of an order that has not been handed over. -/
def pending (u : User σ) : List Outcome :=
  match u.phase with
  | .recording outcome _ => [outcome].filter Outcome.isSent
  | _ => []

/-- No order is left out: what was pending and what is sent is handed over or pending. -/
theorem Stepped.balance (h : u.Stepped t c deadline now s deed u' s') :
    u.pending ++ (callsIn deed.toList).map (Call.outcome t) =
      ((recordsIn deed.toList).map Prod.fst).filter Outcome.isSent ++ u'.pending := by
  cases h with
  | asleep hp | laidDown hp | stopped hp => simp [pending, hp]
  | finished hp | lost hp => simp [pending, hp, stop]
  | starved hp => simp [pending, hp, Outcome.isSent]
  | @ordered wake order taken hp _ _ _ hd =>
    have hsent := Actor.classify_isSent t u.actor.index (Gateway.place order s.gateway.inner).1
    simp [pending, hp, hsent, ← Call.outcome_place t u.actor.index order]
  | gaveUp hp => simp [pending, hp, stop, Outcome.isSent]
  | thought hp | faulted hp => simp [pending, hp]

theorem Takes.balance (h : u.Takes γ t c deadline during deeds u') :
    u.pending ++ (callsIn deeds).map (Call.outcome t) =
      ((recordsIn deeds).map Prod.fst).filter Outcome.isSent ++ u'.pending := by
  induction h with
  | rest u => simp
  | step _ hstep _ ih =>
    rw [callsIn_append, recordsIn_append, List.map_append, List.map_append, List.filter_append,
      ← List.append_assoc, hstep.balance, List.append_assoc, ih, List.append_assoc]

/-- A user sends one order after the other, and counts each when it has handed its outcome over. -/
theorem Stepped.sent (h : u.Stepped t c deadline now s deed u' s') :
    u.sent + u.pending.length + (callsIn deed.toList).length = u'.sent + u'.pending.length ∧
      ∀ cap, c.maxRequests = some cap → u.sent + u.pending.length ≤ cap →
        u'.sent + u'.pending.length ≤ cap := by
  cases h with
  | asleep hp | stopped hp => simp
  | laidDown hp => simp [pending, hp]
  | finished hp | lost hp => simp [pending, hp, stop]
  | starved hp => simp [pending, hp, Outcome.isSent]
  | @ordered wake order taken hp _ hcap _ hd =>
    have hsent := Actor.classify_isSent t u.actor.index (Gateway.place order s.gateway.inner).1
    constructor
    · simp [pending, hp, hsent]
    · intro cap hc _
      have hlt : u.sent < cap := by simpa [atCap, hc] using hcap
      simpa [pending, hsent] using Nat.succ_le_of_lt hlt
  | gaveUp hp => simp [pending, hp, stop, Outcome.isSent]
  | @thought outcome placed wait taken hp hs _ =>
    have hsent := Outcome.isSent_of_ne hs
    simp [pending, hp, hsent]
  | @faulted outcome placed fault actor hp hs =>
    have hsent := Outcome.isSent_of_ne hs
    simp [pending, hp, hsent]

theorem Takes.sent (h : u.Takes γ t c deadline during deeds u') :
    u.sent + u.pending.length + (callsIn deeds).length = u'.sent + u'.pending.length ∧
      ∀ cap, c.maxRequests = some cap → u.sent + u.pending.length ≤ cap →
        u'.sent + u'.pending.length ≤ cap := by
  induction h with
  | rest u => simp
  | step _ hstep _ ih =>
    obtain ⟨hcount, hcap⟩ := hstep.sent
    obtain ⟨hcount', hcap'⟩ := ih
    constructor
    · rw [callsIn_append, List.length_append, ← Nat.add_assoc, hcount, hcount']
    · intro cap hc hle
      exact hcap' cap hc (hcap cap hc hle)

/-- How many turns are handed over as skipped. -/
def skips (deeds : List Deed) : Nat :=
  ((recordsIn deeds).map Prod.fst).countP fun outcome => !outcome.isSent

theorem skips_append (deeds later : List Deed) : skips (deeds ++ later) = skips deeds + skips later := by
  simp [skips]

/-- How many turns a user may still skip: a user that has stopped none. -/
def maySkip (u : User σ) : Nat := if u.phase.isStopped then 0 else 1

theorem Stepped.skips (h : u.Stepped t c deadline now s deed u' s') :
    User.skips deed.toList + u'.maySkip ≤ u.maySkip := by
  cases h with
  | asleep hp | stopped hp => simp [User.skips]
  | finished hp | lost hp => simp [User.skips, maySkip, hp, stop, Phase.isStopped]
  | starved hp | ordered hp | laidDown hp => simp [User.skips, maySkip, hp, Phase.isStopped]
  | gaveUp hp =>
    simp [User.skips, maySkip, hp, stop, Phase.isStopped, Outcome.isSent]
  | @thought outcome placed wait taken hp hs _ =>
    have hsent := Outcome.isSent_of_ne hs
    simp [User.skips, maySkip, hp, Phase.isStopped, hsent]
  | @faulted outcome placed fault actor hp hs =>
    have hsent := Outcome.isSent_of_ne hs
    simp [User.skips, maySkip, hp, Phase.isStopped, hsent]

/-- A user skips one turn at most. -/
theorem Takes.skips (h : u.Takes γ t c deadline during deeds u') :
    User.skips deeds + u'.maySkip ≤ u.maySkip := by
  induction h with
  | rest u => simp [User.skips]
  | step _ hstep _ ih =>
    have hfirst := hstep.skips
    rw [skips_append]
    omega

/-- A user that has something to order from goes on up to its cap while there is time. -/
structure Busy (c : LoadConfig) (u : User σ) : Prop where
  full : u.phase = .stopped none → u.atCap c = true
  sends : ∀ placed, u.phase ≠ .recording .skipped placed

omit [Source σ] in
theorem Busy.of_phase (hs : u.phase ≠ .stopped none)
    (hr : ∀ placed, u.phase ≠ .recording .skipped placed) : u.Busy c := by
  constructor
  · intro h
    exact absurd h hs
  · exact hr

theorem Stepped.busy (h : u.Stepped t c deadline now s deed u' s') (hne : t.fixtures ≠ [])
    (hnow : now < deadline) (hb : u.Busy c) : u'.Busy c ∧ User.skips deed.toList = 0 := by
  cases h with
  | finished hp hend =>
    have hcap : u.atCap c = true := hend.resolve_left (Nat.not_le.2 hnow)
    refine ⟨⟨?_, by simp [stop]⟩, rfl⟩
    intro _
    exact hcap
  | starved _ _ _ hnil => exact absurd hnil hne
  | lost hp => exact ⟨.of_phase (by simp [stop]) (by simp [stop]), rfl⟩
  | @ordered wake order taken hp _ _ _ _ =>
    refine ⟨.of_phase (by simp) ?_, rfl⟩
    intro placed hp'
    have hskip : (Actor.classify t u.actor.index (Gateway.place order s.gateway.inner).1).1 = .skipped :=
      (Phase.recording.inj hp').1
    exact absurd hskip (Traffic.classify_not_skipped t u.actor.index _).1
  | gaveUp hp => exact absurd hp (hb.sends _)
  | @thought outcome placed wait taken hp hs _ =>
    refine ⟨.of_phase (by simp) (by simp), ?_⟩
    simp [User.skips, Outcome.isSent_of_ne hs]
  | @faulted outcome placed fault actor hp hs =>
    refine ⟨.of_phase (by simp) (by simp), ?_⟩
    simp [User.skips, Outcome.isSent_of_ne hs]
  | laidDown hp => exact ⟨.of_phase (by simp) (by simp), rfl⟩
  | asleep hp | stopped hp => exact ⟨hb, rfl⟩

theorem Takes.busy (h : u.Takes γ t c deadline (· < deadline) deeds u') (hne : t.fixtures ≠ [])
    (hb : u.Busy c) : u'.Busy c ∧ User.skips deeds = 0 := by
  induction h with
  | rest u => exact ⟨hb, rfl⟩
  | step hnow hstep _ ih =>
    obtain ⟨hb', hskips⟩ := hstep.busy hne hnow hb
    obtain ⟨hb'', hlater⟩ := ih hb'
    refine ⟨hb'', ?_⟩
    rw [skips_append, hskips, hlater]

/-- A user that has nothing to order from. -/
structure Starving (u : User σ) : Prop where
  sent : u.sent = 0
  skips : ∀ outcome placed, u.phase = .recording outcome placed → outcome = .skipped

theorem Stepped.starving (h : u.Stepped t c deadline now s deed u' s') (hnil : t.fixtures = [])
    (hnow : now < deadline) (hcap : c.maxRequests ≠ some 0) (hs : u.Starving) :
    u'.Starving ∧ User.skips deed.toList + u'.maySkip = u.maySkip := by
  cases h with
  | finished hp hend =>
    have hfull : u.atCap c = true := hend.resolve_left (Nat.not_le.2 hnow)
    simp only [atCap, Option.any_eq_true, decide_eq_true_eq, hs.sent, Nat.le_zero_eq] at hfull
    obtain ⟨cap, hc, rfl⟩ := hfull
    exact absurd hc hcap
  | starved hp =>
    refine ⟨⟨hs.sent, ?_⟩, ?_⟩
    · intro outcome placed hp'
      cases hp'
      rfl
    · simp [User.skips, maySkip, hp, Phase.isStopped]
  | lost _ _ hne => exact absurd hnil hne
  | ordered _ _ _ hne => exact absurd hnil hne
  | gaveUp hp =>
    refine ⟨⟨hs.sent, by simp [stop]⟩, ?_⟩
    simp [User.skips, maySkip, hp, stop, Phase.isStopped, Outcome.isSent]
  | thought hp hne => exact absurd (hs.skips _ _ hp) hne
  | faulted hp hne => exact absurd (hs.skips _ _ hp) hne
  | laidDown hp => exact ⟨⟨hs.sent, by simp⟩, by simp [User.skips, maySkip, hp, Phase.isStopped]⟩
  | asleep hp | stopped hp => exact ⟨hs, by simp [User.skips]⟩

theorem Takes.starving (h : u.Takes γ t c deadline (· < deadline) deeds u') (hnil : t.fixtures = [])
    (hcap : c.maxRequests ≠ some 0) (hs : u.Starving) :
    User.skips deeds + u'.maySkip = u.maySkip := by
  induction h with
  | rest u => simp [User.skips]
  | step hnow hstep _ ih =>
    obtain ⟨hs', hfirst⟩ := hstep.starving hnil hnow hcap hs
    have hlater := ih hs'
    rw [skips_append]
    omega

end User

/-! ## All users -/

section Run

variable {σ γ : Type} [Source σ] [Gateway γ] {t : Traffic} {c : LoadConfig} {deadline : Instant}

/-- What a summary says of a run in which users did some deeds and the gateway got some calls. -/
structure Accounts (t : Traffic) (c : LoadConfig) (deadline : Instant) (schedule : List Tick)
    (deeds : List (Nat × Deed)) (calls : List Call) (s : Summary) : Prop where
  /-- The gateway gets the orders that users send, and nothing else. -/
  gathered : calls = callsIn (deeds.map Prod.snd)
  placements : ∀ call ∈ calls, call.isPlacement = true
  users : ∀ entry ∈ deeds, entry.1 < c.users
  requests : s.requests = calls.length
  parts : s.requests = s.successes + s.failures
  successes : s.successes = calls.countP (Call.isAnsweredIn t.accepted)
  lost : s.transportFailures = calls.countP Call.isLost
  /-- Each status has the number of calls that came back with it, and no other status is there. -/
  statuses : ∀ status, Summary.countOf status s.statusCounts = calls.countP (·.status? = some status)
  tidy : Summary.Tidy s.statusCounts
  answered : (s.statusCounts.map Prod.snd).sum = s.requests - s.transportFailures
  capped : ∀ cap, c.maxRequests = some cap → ∀ user < c.users,
    (callsIn (deedsOf user deeds)).length ≤ cap
  /-- Before the deadline everybody comes to the cap. -/
  full : ∀ cap, c.maxRequests = some cap → t.fixtures ≠ [] → (∀ tick ∈ schedule, tick.now < deadline) →
    s.skipped = 0 ∧ s.requests = c.users * cap
  starved : t.fixtures = [] → s.requests = 0 ∧ calls = []
  /-- Nobody skips more than one turn, and all skipped turns are counted. -/
  skips : ∀ user < c.users, User.skips (deedsOf user deeds) ≤ 1
  skipped : s.skipped = User.skips (deeds.map Prod.snd)
  /-- Before the deadline everybody who may send an order finds that there is none to send. -/
  allSkipped : t.fixtures = [] → c.maxRequests ≠ some 0 → (∀ tick ∈ schedule, tick.now < deadline) →
    s.skipped = c.users

theorem sum_of_each {count k : Nat} {f : Nat → Nat} (h : ∀ i < count, f i = k) :
    ((List.range count).map f).sum = count * k := by
  have hconst : (List.range count).map f = List.replicate count k := by
    apply List.eq_replicate_iff.2
    simpa using h
  rw [hconst, List.sum_replicate_nat]

/-- What the users of a run have done by the time when all of them have stopped. -/
structure Ended (γ : Type) [Gateway γ] (σ : Type) [Source σ] (t : Traffic) (c : LoadConfig)
    (deadline : Instant) (schedule : List Tick) (deeds : List (Nat × Deed)) : Prop where
  users : ∀ entry ∈ deeds, entry.1 < c.users
  takes : ∀ during : Instant → Prop, (∀ tick ∈ schedule, during tick.now) → ∀ user < c.users,
    ∃ (actor : Actor σ) (u' : User σ), u'.phase = .stopped none ∧
      User.Takes γ t c deadline during { actor } (deedsOf user deeds) u'

theorem ended_of_run (hu : ∀ f ∈ t.fixtures, f.isUsable = true) {actors : List (Actor σ)}
    (ha : actors.length = c.users) (gateway : Recorded γ) (schedule : List Tick)
    (hs : ∀ u ∈ ((Field.start actors gateway).run t c deadline schedule).users,
      u.phase = .stopped none) :
    Ended γ σ t c deadline schedule ((Field.start actors gateway).deeds t c deadline schedule) := by
  have hlength : (Field.start actors gateway).users.length = c.users := by
    simp [Field.start, ha]
  constructor
  · have hdeeds := (run_users t c deadline schedule
      (Field.start actors gateway)).2
    rwa [hlength] at hdeeds
  · intro during hat user hlt
    have hactor : user < actors.length := by omega
    have hget : (Field.start actors gateway).users[user]? = some { actor := actors[user] } := by
      simp [Field.start, hactor]
    obtain ⟨u', hget', htakes⟩ := run_takes c deadline hu during schedule _ hat hget
    exact ⟨actors[user], u', hs u' (List.mem_of_getElem? hget'), htakes⟩

namespace Ended

variable {schedule : List Tick} {deeds : List (Nat × Deed)}

theorem steps (h : Ended γ σ t c deadline schedule deeds) {user : Nat} (hlt : user < c.users) :
    ∃ (actor : Actor σ) (u' : User σ), u'.phase = .stopped none ∧
      User.Takes γ t c deadline (fun _ => True) { actor } (deedsOf user deeds) u' :=
  h.takes (fun _ => True) (fun _ _ => trivial) user hlt

/-- What was handed over of sent orders are the outcomes of the calls. -/
theorem outcomes (h : Ended γ σ t c deadline schedule deeds) :
    (((recordsIn (deeds.map Prod.snd)).map Prod.fst).filter Outcome.isSent).Perm
      ((callsIn (deeds.map Prod.snd)).map (Call.outcome t)) := by
  have hrecords := ((records_perm h.users).map Prod.fst).filter Outcome.isSent
  have hcalls := (calls_perm h.users).map (Call.outcome t)
  rw [List.map_flatMap, List.filter_flatMap] at hrecords
  rw [List.map_flatMap] at hcalls
  refine hrecords.trans (List.Perm.trans ?_ hcalls.symm)
  -- each user hands over what it has sent, in its own order
  rw [List.flatMap_congr]
  intro user hm
  obtain ⟨actor, u', hp, htakes⟩ := h.steps (List.mem_range.1 hm)
  have hbalance := htakes.balance
  simp only [User.pending, hp, List.nil_append, List.append_nil] at hbalance
  exact hbalance.symm

/-- So many outcomes of a kind that is sent are handed over as calls come out that way. -/
theorem countP_outcomes (h : Ended γ σ t c deadline schedule deeds) {kind : Outcome → Bool}
    (hk : ∀ outcome, kind outcome = true → outcome.isSent = true) :
    ((recordsIn (deeds.map Prod.snd)).map Prod.fst).countP kind =
      (callsIn (deeds.map Prod.snd)).countP fun call => kind (call.outcome t) := by
  have hcount := h.outcomes.countP_eq kind
  rw [List.countP_filter, List.countP_map (l := callsIn (deeds.map Prod.snd))] at hcount
  refine Eq.trans ?_ hcount
  apply List.countP_congr
  intro outcome _
  constructor
  · intro hkind
    simp [hkind, hk outcome hkind]
  · intro hboth
    simp only [Bool.and_eq_true] at hboth
    exact hboth.1

/-- A call was made by somebody. -/
theorem mem_calls (h : Ended γ σ t c deadline schedule deeds) {call : Call} :
    call ∈ callsIn (deeds.map Prod.snd) ↔ ∃ user < c.users, call ∈ callsIn (deedsOf user deeds) := by
  rw [(calls_perm h.users).mem_iff, List.mem_flatMap]
  simp only [List.mem_range]

theorem placements (h : Ended γ σ t c deadline schedule deeds) :
    ∀ call ∈ callsIn (deeds.map Prod.snd), call.isPlacement = true := by
  intro call hc
  obtain ⟨user, hlt, hcall⟩ := h.mem_calls.1 hc
  obtain ⟨actor, u', -, htakes⟩ := h.steps hlt
  exact htakes.placements call hcall

/-- The calls are as many as the users have sent orders. -/
theorem calls_length (h : Ended γ σ t c deadline schedule deeds) :
    (callsIn (deeds.map Prod.snd)).length =
      ((List.range c.users).map fun user => (callsIn (deedsOf user deeds)).length).sum := by
  rw [(calls_perm h.users).length_eq, List.length_flatMap]

theorem skips_eq (h : Ended γ σ t c deadline schedule deeds) :
    User.skips (deeds.map Prod.snd) =
      ((List.range c.users).map fun user => User.skips (deedsOf user deeds)).sum := by
  have hcount := ((records_perm h.users).map Prod.fst).countP_eq fun outcome => !outcome.isSent
  rw [List.map_flatMap, List.countP_flatMap] at hcount
  exact hcount

/-- No user sends more orders than it may. -/
theorem capped (h : Ended γ σ t c deadline schedule deeds) {cap : Nat} (hc : c.maxRequests = some cap)
    {user : Nat} (hlt : user < c.users) : (callsIn (deedsOf user deeds)).length ≤ cap := by
  obtain ⟨actor, u', -, htakes⟩ := h.steps hlt
  obtain ⟨hcount, hcap⟩ := htakes.sent
  have hle := hcap cap hc (Nat.zero_le cap)
  change 0 + 0 + _ = _ at hcount
  omega

/-- Before the deadline a user that has something to order from sends as many orders as it may. -/
theorem full (h : Ended γ σ t c deadline schedule deeds) {cap : Nat} (hc : c.maxRequests = some cap)
    (hne : t.fixtures ≠ []) (hd : ∀ tick ∈ schedule, tick.now < deadline) {user : Nat}
    (hlt : user < c.users) :
    (callsIn (deedsOf user deeds)).length = cap ∧ User.skips (deedsOf user deeds) = 0 := by
  obtain ⟨actor, u', hp, htakes⟩ := h.takes (· < deadline) hd user hlt
  obtain ⟨hbusy, hskips⟩ := htakes.busy hne (.of_phase (by simp) (by simp))
  have hle := h.capped hc hlt
  have hcap : cap ≤ u'.sent := by simpa [User.atCap, hc] using hbusy.full hp
  have hcount := htakes.sent.1
  simp only [User.pending, hp, List.length_nil, Nat.zero_add, Nat.add_zero] at hcount
  exact ⟨by omega, hskips⟩

theorem silent (h : Ended γ σ t c deadline schedule deeds) (hnil : t.fixtures = []) :
    callsIn (deeds.map Prod.snd) = [] := by
  apply List.eq_nil_iff_forall_not_mem.2
  intro call hc
  obtain ⟨user, hlt, hcall⟩ := h.mem_calls.1 hc
  obtain ⟨actor, u', -, htakes⟩ := h.steps hlt
  rw [htakes.silent hnil] at hcall
  cases hcall

theorem skips_le (h : Ended γ σ t c deadline schedule deeds) {user : Nat} (hlt : user < c.users) :
    User.skips (deedsOf user deeds) ≤ 1 := by
  obtain ⟨actor, u', -, htakes⟩ := h.steps hlt
  exact Nat.le_trans (Nat.le_add_right _ _) htakes.skips

/-- Before the deadline a user that has nothing to order from skips a turn, unless it may not send
anything at all. -/
theorem starves (h : Ended γ σ t c deadline schedule deeds) (hnil : t.fixtures = [])
    (hcap : c.maxRequests ≠ some 0) (hd : ∀ tick ∈ schedule, tick.now < deadline) {user : Nat}
    (hlt : user < c.users) : User.skips (deedsOf user deeds) = 1 := by
  obtain ⟨actor, u', hp, htakes⟩ := h.takes (· < deadline) hd user hlt
  simpa [User.maySkip, hp, Phase.isStopped] using htakes.starving hnil hcap ⟨rfl, by simp⟩

/-- A figure of the summary that counts orders is a number of calls. -/
theorem figure (h : Ended γ σ t c deadline schedule deeds) {figure : Summary → Nat}
    {kind : Outcome → Bool} (hk : Summary.Counts figure kind) (hz : figure (.new c.users) = 0)
    (hsent : ∀ outcome, kind outcome = true → outcome.isSent = true) :
    figure ((Summary.new c.users).recordAll (recordsIn (deeds.map Prod.snd))) =
      (callsIn (deeds.map Prod.snd)).countP fun call => kind (call.outcome t) := by
  rw [hk.recordAll _ (Summary.new_tidy _), hz, Nat.zero_add, h.countP_outcomes hsent]

theorem figure_sent (h : Ended γ σ t c deadline schedule deeds) {figure : Summary → Nat}
    (hk : Summary.Counts figure Outcome.isSent) (hz : figure (.new c.users) = 0) :
    figure ((Summary.new c.users).recordAll (recordsIn (deeds.map Prod.snd))) =
      (callsIn (deeds.map Prod.snd)).length := by
  rw [h.figure hk hz fun _ hsent => hsent]
  apply List.countP_eq_length.2
  intro call hc
  exact Call.outcome_isSent t (h.placements call hc)

theorem successes (h : Ended γ σ t c deadline schedule deeds) :
    ((Summary.new c.users).recordAll (recordsIn (deeds.map Prod.snd))).successes =
      (callsIn (deeds.map Prod.snd)).countP (Call.isAnsweredIn t.accepted) := by
  rw [h.figure Summary.counts_successes rfl]
  · simp only [Call.outcome_isSuccess]
  · intro outcome
    cases outcome <;> simp [Outcome.isSuccess, Outcome.isSent]

theorem transportFailures (h : Ended γ σ t c deadline schedule deeds) :
    ((Summary.new c.users).recordAll (recordsIn (deeds.map Prod.snd))).transportFailures =
      (callsIn (deeds.map Prod.snd)).countP Call.isLost := by
  rw [h.figure Summary.counts_transportFailures rfl]
  · apply List.countP_congr
    intro call hc
    have hplaced := h.placements call hc
    rw [Call.outcome_status?, Call.outcome_isSent t hplaced, Call.isLost_eq hplaced, Bool.true_and]
  · intro outcome hkind
    simp only [Bool.and_eq_true] at hkind
    exact hkind.1

theorem statuses (h : Ended γ σ t c deadline schedule deeds) (status : Nat) :
    Summary.countOf status
        ((Summary.new c.users).recordAll (recordsIn (deeds.map Prod.snd))).statusCounts =
      (callsIn (deeds.map Prod.snd)).countP (·.status? = some status) := by
  rw [h.figure (Summary.counts_status status) rfl]
  · simp only [Call.outcome_status?]
  · intro outcome
    cases outcome <;> simp [Outcome.status?, Outcome.isSent]

theorem skipped (h : Ended γ σ t c deadline schedule deeds) :
    ((Summary.new c.users).recordAll (recordsIn (deeds.map Prod.snd))).skipped =
      ((List.range c.users).map fun user => User.skips (deedsOf user deeds)).sum := by
  rw [← h.skips_eq, Summary.counts_skipped.recordAll _ (Summary.new_tidy _)]
  exact Nat.zero_add _

/-- The summary of a run accounts for it. -/
theorem accounts (h : Ended γ σ t c deadline schedule deeds) {elapsed : Duration} {s : Summary}
    (hs : ((Summary.new c.users).recordAll (recordsIn (deeds.map Prod.snd))).finish elapsed = .ok s) :
    Accounts t c deadline schedule deeds (callsIn (deeds.map Prod.snd)) s := by
  rw [Summary.eq_derived hs]
  have hrequests := h.figure_sent Summary.counts_requests rfl
  constructor
  case gathered => rfl
  case placements => exact h.placements
  case users => exact h.users
  case requests => exact hrequests
  case parts => exact hrequests.trans (h.figure_sent Summary.counts_parts rfl).symm
  case successes => exact h.successes
  case lost => exact h.transportFailures
  case statuses => exact h.statuses
  case tidy => exact Summary.recordAll_tidy _ (Summary.new_tidy _)
  case answered =>
    have hall := h.figure_sent Summary.counts_answered rfl
    rw [← hrequests] at hall
    exact Nat.eq_sub_of_add_eq hall
  case capped =>
    intro cap hc user hlt
    exact h.capped hc hlt
  case full =>
    intro cap hc hne hd
    constructor
    · refine h.skipped.trans ?_
      exact sum_of_each fun user hlt => (h.full hc hne hd hlt).2
    · refine hrequests.trans (h.calls_length.trans ?_)
      exact sum_of_each fun user hlt => (h.full hc hne hd hlt).1
  case starved =>
    intro hnil
    have hnone := h.silent hnil
    exact ⟨hrequests.trans (by rw [hnone]; rfl), hnone⟩
  case skips =>
    intro user hlt
    exact h.skips_le hlt
  case skipped => exact h.skipped.trans h.skips_eq.symm
  case allSkipped =>
    intro hnil hcap hd
    refine h.skipped.trans ?_
    rw [sum_of_each fun user hlt => h.starves hnil hcap hd hlt, Nat.mul_one]

end Ended

/-- The users of a run, each with a generator of its own. -/
def usersOf (c : LoadConfig) (generators : Nat → σ) : List (Actor σ) :=
  (List.range c.users).map fun index => ⟨index, generators index⟩

theorem accounts_of_scheduled (hu : ∀ f ∈ t.fixtures, f.isUsable = true) {generators : Nat → σ}
    {gateway : γ} {started finished : Instant} {schedule : List Tick} {s : Summary} {g : Recorded γ}
    (h : runScheduled t c (usersOf c generators) ⟨gateway, []⟩ started finished schedule =
      (some (.ok s), g)) :
    c.check = .ok () ∧ ∃ deadline, deadline? started c.duration = some deadline ∧
      Accounts t c deadline schedule
        ((Field.start (usersOf c generators) ⟨gateway, []⟩).deeds t c deadline schedule) g.calls s := by
  obtain ⟨deadline, hc, hd, hstopped, hfinish, rfl⟩ := runScheduled_eq_ok h
  have hlength : (usersOf c generators).length = c.users := by simp [usersOf]
  have hended := ended_of_run hu hlength ⟨gateway, []⟩ schedule hstopped
  refine ⟨hc, deadline, hd, ?_⟩
  rw [run_summary hu] at hfinish
  rw [run_calls hu]
  have haccounts := hended.accounts (by simpa [Field.start, hlength] using hfinish)
  simpa [Field.start] using haccounts

/-- The run whose users take their turns one after the other is one that its summary accounts for. -/
theorem run_accounts (hu : ∀ f ∈ t.fixtures, f.isUsable = true) {generators : Nat → σ}
    {gateway : γ} {s : Summary} {g : Recorded γ}
    (h : run t c (usersOf c generators) (⟨gateway, []⟩ : Recorded γ) = (.ok s, g)) :
    ∃ schedule deadline, deadline? 0 c.duration = some deadline ∧ Accounts t c deadline schedule
      ((Field.start (usersOf c generators) ⟨gateway, []⟩).deeds t c deadline schedule) g.calls s := by
  obtain ⟨schedule, hs⟩ := run_scheduled t c (usersOf c generators) (⟨gateway, []⟩ : Recorded γ)
  rw [h] at hs
  obtain ⟨-, deadline, ha⟩ := accounts_of_scheduled hu hs
  exact ⟨schedule, deadline, ha⟩

/-- Whatever the document, the gateway, the configuration and the generators of the users, and in
whatever order and at whatever instants the users take their steps: a run that is summed up has the
figures of what its users did and of the calls that the gateway got. -/
theorem summary_accounts (d : Document) (customer : CustomerId) (accepted : List Nat)
    (seed : Option UInt64) (c : LoadConfig) (generators : Nat → σ) (gateway : γ)
    (started finished : Instant) (schedule : List Tick) (s : Summary) (g : Recorded γ)
    (h : runScheduled (Traffic.ofDocument d customer accepted seed).1 c (usersOf c generators)
      ⟨gateway, []⟩ started finished schedule = (some (.ok s), g)) :
    c.check = .ok () ∧ ∃ deadline, deadline? started c.duration = some deadline ∧
      Accounts (Traffic.ofDocument d customer accepted seed).1 c deadline schedule
        ((Field.start (usersOf c generators) ⟨gateway, []⟩).deeds
          (Traffic.ofDocument d customer accepted seed).1 c deadline schedule) g.calls s := by
  have hu : ∀ f ∈ (Traffic.ofDocument d customer accepted seed).1.fixtures, f.isUsable = true := by
    intro f hf
    exact (List.mem_filter.1 hf).2
  exact accounts_of_scheduled hu h

/-- A document with a fixture that can be used and one that cannot. -/
def halfUsable : Document := ⟨[⟨⟨"r1"⟩, [⟨⟨"i1"⟩, "Soup", "", 60.0⟩]⟩, ⟨⟨"r2"⟩, []⟩]⟩

/-- Two users who may send an order each. -/
def pair : LoadConfig := ⟨2, .ofSecs 30, some 1, .zero, .zero⟩

/-- Both have an order out before the first outcome is handed over. -/
def crossing : List Tick := [⟨0, 1⟩, ⟨1, 2⟩, ⟨1, 3⟩, ⟨0, 4⟩, ⟨0, 5⟩, ⟨1, 6⟩, ⟨1, 7⟩, ⟨0, 8⟩]

/-- A run in which the first order is taken and the second one gets no answer. -/
def crossed : Option (Except Refusal Summary) × Recorded ScriptedGateway :=
  runScheduled (Traffic.ofDocument halfUsable ⟨"c"⟩ [200, 201] none).1 pair
    (usersOf pair fun index => (⟨fun _ => UInt32.ofNat index, 0⟩ : Random.Stream))
    ⟨⟨true, .ok [], [], [.ok ⟨201, ""⟩]⟩, []⟩ 0 9 crossing

theorem summary_accounts_crossing :
    ∃ s g deadline deeds, crossed = (some (.ok s), g) ∧
      Accounts (Traffic.ofDocument halfUsable ⟨"c"⟩ [200, 201] none).1 pair deadline crossing deeds
        g.calls s ∧
      s.requests = 2 ∧ s.successes = 1 ∧ s.transportFailures = 1 := by
  have hfigures : (crossed.1.bind Except.toOption).map
      (fun s => (s.requests, s.successes, s.transportFailures)) = some (2, 1, 1) := by
    decide +kernel
  rcases h : crossed with ⟨_ | ⟨_ | s⟩, g⟩
  case none => rw [h] at hfigures; cases hfigures
  case some.error => rw [h] at hfigures; cases hfigures
  case some.ok =>
    obtain ⟨-, deadline, -, ha⟩ := summary_accounts _ _ _ _ _ _ _ _ _ _ s g h
    rw [h] at hfigures
    simp only [Option.bind_some, Except.toOption, Option.map_some, Option.some.injEq,
      Prod.mk.injEq] at hfigures
    exact ⟨s, g, deadline, _, rfl, ha, hfigures⟩

end Run

end Load

end LunchRush
