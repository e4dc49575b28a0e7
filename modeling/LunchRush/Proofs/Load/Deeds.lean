import LunchRush.Proofs.Load.Orders
import LunchRush.Proofs.Load.Scheduled
import LunchRush.Proofs.Load.Summary
/-!
# What users do

A step of a user does at most one thing that others can see: the gateway gets an order, or the
recorder gets an outcome. `Field.deeds` are those deeds in the order of a schedule, and the gateway
and the summary hold nothing else (`run_calls`, `run_summary`). The deeds of one user come from its
own steps alone (`run_takes`), which `User.Stepped` lists; a statement about a user is proved over
these and then holds in every schedule.

An order that reaches the gateway and its answer are one step. The gateway is any state that
answers, so whatever answers the orders of a run get in the end, there is a gateway that gives them at
once; and a user that waits for its answer does nothing else.
-/

namespace LunchRush.Load

open LunchRush.Random (Source PassesOver after)

/-- What a step does for others to see. -/
inductive Deed where
  | sent (call : Call)
  | recorded (outcome : Outcome) (latency : Duration)

def Deed.call? : Deed → Option Call
  | .sent call => some call
  | .recorded _ _ => none

def Deed.record? : Deed → Option (Outcome × Duration)
  | .sent _ => none
  | .recorded outcome latency => some (outcome, latency)

def callsIn (deeds : List Deed) : List Call := deeds.filterMap Deed.call?

def recordsIn (deeds : List Deed) : List (Outcome × Duration) := deeds.filterMap Deed.record?

/-- The deeds of one user. -/
def deedsOf (user : Nat) (deeds : List (Nat × Deed)) : List Deed :=
  (deeds.filter (·.1 = user)).map Prod.snd

@[simp] theorem callsIn_nil : callsIn [] = [] := rfl

@[simp] theorem callsIn_sent (call : Call) (later : List Deed) :
    callsIn (.sent call :: later) = call :: callsIn later := rfl

@[simp] theorem callsIn_recorded (outcome : Outcome) (latency : Duration) (later : List Deed) :
    callsIn (.recorded outcome latency :: later) = callsIn later := rfl

@[simp] theorem recordsIn_nil : recordsIn [] = [] := rfl

@[simp] theorem recordsIn_sent (call : Call) (later : List Deed) :
    recordsIn (.sent call :: later) = recordsIn later := rfl

@[simp] theorem recordsIn_recorded (outcome : Outcome) (latency : Duration) (later : List Deed) :
    recordsIn (.recorded outcome latency :: later) = (outcome, latency) :: recordsIn later := rfl

@[simp] theorem callsIn_append (deeds later : List Deed) :
    callsIn (deeds ++ later) = callsIn deeds ++ callsIn later := by
  simp [callsIn]

@[simp] theorem recordsIn_append (deeds later : List Deed) :
    recordsIn (deeds ++ later) = recordsIn deeds ++ recordsIn later := by
  simp [recordsIn]

@[simp] theorem deedsOf_append (user : Nat) (deeds later : List (Nat × Deed)) :
    deedsOf user (deeds ++ later) = deedsOf user deeds ++ deedsOf user later := by
  simp [deedsOf]

variable {σ γ : Type} [Source σ] [Gateway γ] {t : Traffic} {c : LoadConfig} {deadline : Instant}

/-! ## The steps of a user -/

/-- What a user does in a step: it hands over an outcome, or the gateway gets a call that it had not
got before. -/
def User.deed? (t : Traffic) (c : LoadConfig) (deadline now : Instant) (u : User σ)
    (s : Shared (Recorded γ)) : Option Deed :=
  match u.phase with
  | .recording outcome placed => some (.recorded outcome (.ofNanos (now - placed)))
  | _ => (u.step t c deadline now s).2.gateway.calls[s.gateway.calls.length]?.map .sent

/-- How a step of a user can go at an instant: what it does, and what becomes of the user and of what
users share. -/
inductive User.Stepped (t : Traffic) (c : LoadConfig) (deadline now : Instant) (u : User σ)
    (s : Shared (Recorded γ)) : Option Deed → User σ → Shared (Recorded γ) → Prop
  | asleep {wake : Instant} : u.phase = .deciding wake → now < wake →
      Stepped t c deadline now u s none u s
  /-- The time is over, or the user has sent as many orders as it may. -/
  | finished {wake : Instant} : u.phase = .deciding wake → deadline ≤ now ∨ u.atCap c = true →
      Stepped t c deadline now u s none (u.stop none) s
  /-- There is nothing to order from. -/
  | starved {wake : Instant} {taken : Nat} : u.phase = .deciding wake → now < deadline →
      u.atCap c = false → t.fixtures = [] → Stepped t c deadline now u s none
        { u with
          actor := { u.actor with generator := after taken u.actor.generator }
          phase := .recording .skipped now } s
  /-- An order is drawn for ever. -/
  | lost {wake : Instant} : u.phase = .deciding wake → now < deadline → t.fixtures ≠ [] →
      Actor.drawOrder t u.actor.generator = .error .endless → PassesOver u.actor.generator →
      Stepped t c deadline now u s none (u.stop (some .endless)) s
  | ordered {wake : Instant} {order : Order} {taken : Nat} : u.phase = .deciding wake →
      now < deadline → u.atCap c = false → t.fixtures ≠ [] →
      Actor.drawOrder t u.actor.generator = .ok (some (.ok order), after taken u.actor.generator) →
      Stepped t c deadline now u s
        (some (.sent (.place order (Gateway.place order s.gateway.inner).1)))
        { u with
          actor := { u.actor with generator := after taken u.actor.generator }
          phase := .recording
            (Actor.classify t u.actor.index (Gateway.place order s.gateway.inner).1).1 now }
        { s with gateway := (Gateway.place order s.gateway).2 }
  /-- A turn that was skipped is the last one. -/
  | gaveUp {placed : Instant} : u.phase = .recording .skipped placed →
      Stepped t c deadline now u s (some (.recorded .skipped (.ofNanos (now - placed)))) (u.stop none)
        { s with summary := s.summary.record .skipped (.ofNanos (now - placed)) }
  | thought {outcome : Outcome} {placed : Instant} {wait : Duration} {taken : Nat} :
      u.phase = .recording outcome placed → outcome ≠ .skipped →
      Actor.drawThinkTime c.minWait c.maxWait u.actor.generator =
        .ok (some wait, after taken u.actor.generator) →
      Stepped t c deadline now u s (some (.recorded outcome (.ofNanos (now - placed))))
        { u with
          actor := { u.actor with generator := after taken u.actor.generator }
          sent := u.sent + 1
          phase := .thinking wait }
        { s with summary := s.summary.record outcome (.ofNanos (now - placed)) }
  /-- No time to think can be drawn. -/
  | faulted {outcome : Outcome} {placed : Instant} {fault : Fault} {actor : Actor σ} :
      u.phase = .recording outcome placed → outcome ≠ .skipped →
      u.actor.think c.minWait c.maxWait = (.error fault, actor) →
      Stepped t c deadline now u s (some (.recorded outcome (.ofNanos (now - placed))))
        { u with actor, sent := u.sent + 1, phase := .stopped (some fault) }
        { s with summary := s.summary.record outcome (.ofNanos (now - placed)) }
  | laidDown {wait : Duration} : u.phase = .thinking wait → Stepped t c deadline now u s none
      { u with phase := .deciding (wakeAt deadline now wait) } s
  | stopped {fault : Option Fault} : u.phase = .stopped fault → Stepped t c deadline now u s none u s

/-- A user has nothing to order from, or draws an order and sends it, or draws for ever. -/
theorem place_drawn (hu : ∀ f ∈ t.fixtures, f.isUsable = true) (a : Actor σ) (gateway : γ) :
    (t.fixtures = [] ∧ ∃ taken, a.place t gateway =
        .ok ⟨.skipped, [], { a with generator := after taken a.generator }, gateway⟩) ∨
      (t.fixtures ≠ [] ∧ ∃ order taken events,
        Actor.drawOrder t a.generator = .ok (some (.ok order), after taken a.generator) ∧
        a.place t gateway = .ok ⟨(Actor.classify t a.index (Gateway.place order gateway).1).1, events,
          { a with generator := after taken a.generator }, (Gateway.place order gateway).2⟩) ∨
      (t.fixtures ≠ [] ∧ Actor.drawOrder t a.generator = .error .endless ∧ PassesOver a.generator ∧
        a.place t gateway = .error .endless) := by
  unfold Actor.place
  obtain ⟨drawn, taken, hd, hp⟩ | ⟨he, hpasses⟩ := Actor.drawOrder_yields t hu a.generator
  · rw [hd]
    split at hp
    · rename_i hnil
      subst hp
      exact .inl ⟨hnil, _, rfl⟩
    · rename_i hne
      obtain ⟨f, hf, order, rfl, -⟩ := hp
      exact .inr (.inl ⟨hne, order, taken, _, rfl, rfl⟩)
  · have hne : t.fixtures ≠ [] := by
      intro hnil
      rw [Actor.drawOrder_of_nil hnil] at he
      cases he
    rw [he]
    exact .inr (.inr ⟨hne, rfl, hpasses, rfl⟩)

theorem decide_stepped (hu : ∀ f ∈ t.fixtures, f.isUsable = true) (now : Instant) {u : User σ}
    (s : Shared (Recorded γ)) {wake : Instant} (hp : u.phase = .deciding wake) :
    User.Stepped t c deadline now u s (u.deed? t c deadline now s) (u.step t c deadline now s).1
      (u.step t c deadline now s).2 := by
  unfold User.deed? User.step
  simp only [hp]
  by_cases hw : now < wake
  · simp only [hw, if_true, List.getElem?_length, Option.map_none]
    exact .asleep hp hw
  · simp only [hw, if_false]
    unfold User.decide
    by_cases hend : (deadline ≤ now || u.atCap c) = true
    · simp only [hend, if_true, List.getElem?_length, Option.map_none]
      exact .finished hp (by simpa using hend)
    · obtain ⟨hnow, hcap⟩ : now < deadline ∧ u.atCap c = false := by simpa using hend
      simp only [hend, Bool.false_eq_true, if_false]
      rcases place_drawn hu u.actor s.gateway with
        ⟨hnil, taken, hplace⟩ | ⟨hne, order, taken, events, hdrawn, hplace⟩ |
          ⟨hne, hdrawn, hpasses, hplace⟩
      · rw [hplace]
        simp only [List.getElem?_length, Option.map_none]
        exact .starved hp hnow hcap hnil
      · rw [hplace]
        simp only [Gateway.place, List.getElem?_concat_length, Option.map_some]
        exact .ordered hp hnow hcap hne hdrawn
      · rw [hplace]
        simp only [List.getElem?_length, Option.map_none]
        exact .lost hp hnow hne hdrawn hpasses

/-- A time to think takes two words, or none where the bounds are equal. -/
theorem drawThinkTime_after {min max : Duration} {generator generator' : σ} {drawn : Option Duration}
    (h : Actor.drawThinkTime min max generator = .ok (drawn, generator')) :
    ∃ taken, generator' = after taken generator := by
  unfold Actor.drawThinkTime at h
  split at h
  · cases h
    exact ⟨0, rfl⟩
  · unfold Random.uniform at h
    cases hspan : Random.Span.of min.toSeconds max.toSeconds with
    | error fault =>
      rw [hspan] at h
      cases h
    | ok span =>
      rw [hspan] at h
      cases h
      exact ⟨2, rfl⟩

theorem think_drawn {a a' : Actor σ} {min max wait : Duration} (h : a.think min max = (.ok wait, a')) :
    ∃ taken, Actor.drawThinkTime min max a.generator = .ok (some wait, after taken a.generator) ∧
      a' = { a with generator := after taken a.generator } := by
  unfold Actor.think at h
  split at h
  · cases h
  · cases h
  · rename_i hdrawn
    obtain ⟨taken, rfl⟩ := drawThinkTime_after hdrawn
    cases h
    exact ⟨taken, hdrawn, rfl⟩

theorem hand_stepped (now : Instant) {u : User σ} (s : Shared (Recorded γ)) {outcome : Outcome}
    {placed : Instant} (hp : u.phase = .recording outcome placed) :
    User.Stepped t c deadline now u s (u.deed? t c deadline now s) (u.step t c deadline now s).1
      (u.step t c deadline now s).2 := by
  unfold User.deed? User.step
  simp only [hp]
  unfold User.hand
  by_cases hs : outcome = .skipped
  · subst hs
    simp only [if_true]
    exact .gaveUp hp
  · simp only [hs, if_false]
    cases hthink : u.actor.think c.minWait c.maxWait with
    | mk answer actor =>
      cases answer with
      | error fault => exact .faulted hp hs hthink
      | ok wait =>
        obtain ⟨taken, hdrawn, rfl⟩ := think_drawn hthink
        exact .thought hp hs hdrawn

/-- Every step of a user goes in one of these ways. -/
theorem step_stepped (hu : ∀ f ∈ t.fixtures, f.isUsable = true) (now : Instant) (u : User σ)
    (s : Shared (Recorded γ)) :
    User.Stepped t c deadline now u s (u.deed? t c deadline now s) (u.step t c deadline now s).1
      (u.step t c deadline now s).2 := by
  cases hp : u.phase with
  | deciding wake => exact decide_stepped hu now s hp
  | recording outcome placed => exact hand_stepped now s hp
  | thinking wait =>
    unfold User.deed? User.step
    simp only [hp, List.getElem?_length, Option.map_none]
    exact .laidDown hp
  | stopped fault =>
    unfold User.deed? User.step
    simp only [hp, List.getElem?_length, Option.map_none]
    exact .stopped hp

theorem User.Stepped.calls {now : Instant} {u u' : User σ} {s s' : Shared (Recorded γ)}
    {deed : Option Deed} (h : u.Stepped t c deadline now s deed u' s') :
    s'.gateway.calls = s.gateway.calls ++ callsIn deed.toList := by
  cases h <;> simp [Gateway.place]

theorem User.Stepped.summary {now : Instant} {u u' : User σ} {s s' : Shared (Recorded γ)}
    {deed : Option Deed} (h : u.Stepped t c deadline now s deed u' s') :
    s'.summary = s.summary.recordAll (recordsIn deed.toList) := by
  cases h <;> rfl

/-! ## The steps of a schedule -/

/-- What the step that a schedule asks for does, and which user does it. -/
def Field.deed? (t : Traffic) (c : LoadConfig) (deadline : Instant) (f : Field σ (Recorded γ))
    (tick : Tick) : Option (Nat × Deed) :=
  f.users[tick.user]?.bind fun u =>
    (u.deed? t c deadline tick.now f.shared).map fun deed => (tick.user, deed)

/-- What is done in the steps of a schedule, one after the other. -/
def Field.deeds (t : Traffic) (c : LoadConfig) (deadline : Instant) (f : Field σ (Recorded γ)) :
    List Tick → List (Nat × Deed)
  | [] => []
  | tick :: later =>
    (f.deed? t c deadline tick).toList ++ (f.step t c deadline tick).deeds t c deadline later

variable (c deadline) in
/-- The step that a schedule asks for is one of the user's, or there is no such user. -/
theorem field_step (hu : ∀ f ∈ t.fixtures, f.isUsable = true) (f : Field σ (Recorded γ)) (tick : Tick) :
    (f.users[tick.user]? = none ∧ f.deed? t c deadline tick = none ∧ f.step t c deadline tick = f) ∨
      ∃ u deed u' s', f.users[tick.user]? = some u ∧
        f.deed? t c deadline tick = deed.map (fun deed => (tick.user, deed)) ∧
        u.Stepped t c deadline tick.now f.shared deed u' s' ∧
        f.step t c deadline tick = ⟨f.users.set tick.user u', s'⟩ := by
  unfold Field.deed? Field.step
  cases hget : f.users[tick.user]? with
  | none => exact .inl ⟨rfl, rfl, rfl⟩
  | some u => exact .inr ⟨u, _, _, _, rfl, rfl, step_stepped hu tick.now u f.shared, rfl⟩

theorem step_calls (hu : ∀ f ∈ t.fixtures, f.isUsable = true) (f : Field σ (Recorded γ)) (tick : Tick) :
    (f.step t c deadline tick).shared.gateway.calls = f.shared.gateway.calls ++
      callsIn ((f.deed? t c deadline tick).toList.map Prod.snd) := by
  rcases field_step c deadline hu f tick with
    ⟨-, hd, hs⟩ | ⟨u, deed, u', s', -, hd, hstep, hs⟩
  · simp [hd, hs]
  · rw [hd, hs, hstep.calls]
    cases deed <;> rfl

theorem step_summary (hu : ∀ f ∈ t.fixtures, f.isUsable = true) (f : Field σ (Recorded γ))
    (tick : Tick) :
    (f.step t c deadline tick).shared.summary = f.shared.summary.recordAll
      (recordsIn ((f.deed? t c deadline tick).toList.map Prod.snd)) := by
  rcases field_step c deadline hu f tick with
    ⟨-, hd, hs⟩ | ⟨u, deed, u', s', -, hd, hstep, hs⟩
  · rw [hd, hs]
    rfl
  · rw [hd, hs, hstep.summary]
    cases deed <;> rfl

/-- The gateway gets the orders that users send, and nothing else. -/
theorem run_calls (hu : ∀ f ∈ t.fixtures, f.isUsable = true) (schedule : List Tick) :
    ∀ f : Field σ (Recorded γ), (f.run t c deadline schedule).shared.gateway.calls =
      f.shared.gateway.calls ++ callsIn ((f.deeds t c deadline schedule).map Prod.snd) := by
  induction schedule with
  | nil =>
    intro f
    simp [Field.run, Field.deeds]
  | cons tick schedule ih =>
    intro f
    have hlater := ih (f.step t c deadline tick)
    rw [step_calls hu] at hlater
    simpa [Field.deeds, field_run_cons] using hlater

/-- The recorder gets the outcomes that users hand over, and nothing else. -/
theorem run_summary (hu : ∀ f ∈ t.fixtures, f.isUsable = true) (schedule : List Tick) :
    ∀ f : Field σ (Recorded γ), (f.run t c deadline schedule).shared.summary =
      f.shared.summary.recordAll (recordsIn ((f.deeds t c deadline schedule).map Prod.snd)) := by
  induction schedule with
  | nil =>
    intro f
    rfl
  | cons tick schedule ih =>
    intro f
    have hlater := ih (f.step t c deadline tick)
    rw [step_summary hu] at hlater
    simpa [Field.deeds, field_run_cons, Summary.recordAll] using hlater

/-! ## The steps of one user in a schedule -/

/-- Some steps of a user, each at an instant of a kind and at whatever users share by then. -/
inductive User.Takes (γ : Type) [Gateway γ] (t : Traffic) (c : LoadConfig) (deadline : Instant)
    (during : Instant → Prop) : User σ → List Deed → User σ → Prop
  | rest (u : User σ) : Takes γ t c deadline during u [] u
  | step {now : Instant} {s s' : Shared (Recorded γ)} {u u' u'' : User σ} {deed : Option Deed}
      {later : List Deed} : during now → u.Stepped t c deadline now s deed u' s' →
      Takes γ t c deadline during u' later u'' → Takes γ t c deadline during u (deed.toList ++ later) u''

namespace User

variable {during : Instant → Prop} {u u' : User σ} {deeds : List Deed}

/-- A user sends nothing but orders. -/
theorem Takes.placements (h : u.Takes γ t c deadline during deeds u') :
    ∀ call ∈ callsIn deeds, call.isPlacement = true := by
  induction h with
  | rest u => nofun
  | step _ hstep _ ih =>
    intro call hc
    rw [callsIn_append, List.mem_append] at hc
    rcases hc with hc | hc
    · cases hstep <;> simp_all [Call.isPlacement]
    · exact ih call hc

/-- Without a fixture nothing is sent. -/
theorem Takes.silent (h : u.Takes γ t c deadline during deeds u') (hnil : t.fixtures = []) :
    callsIn deeds = [] := by
  induction h with
  | rest u => rfl
  | step _ hstep _ ih =>
    rw [callsIn_append, ih, List.append_nil]
    cases hstep with
    | ordered _ _ _ hne => exact absurd hnil hne
    | _ => rfl

/-- A user that has stopped sends nothing any more. -/
theorem Takes.stopped (h : u.Takes γ t c deadline during deeds u') (hs : u.phase.isStopped = true) :
    callsIn deeds = [] := by
  induction h with
  | rest u => rfl
  | step _ hstep _ ih =>
    cases hstep with
    | stopped hp => exact ih hs
    | asleep hp | finished hp | starved hp | lost hp | ordered hp | gaveUp hp | thought hp | faulted hp
    | laidDown hp =>
      rw [hp] at hs
      cases hs

end User

theorem deedsOf_self (user : Nat) (deed : Option Deed) :
    deedsOf user (deed.map fun deed => (user, deed)).toList = deed.toList := by
  cases deed <;> simp [deedsOf]

theorem deedsOf_other {user other : Nat} (h : other ≠ user) (deed : Option Deed) :
    deedsOf user (deed.map fun deed => (other, deed)).toList = [] := by
  cases deed <;> simp [deedsOf, h]

variable (c deadline) in
/-- In a schedule a user takes its own steps, and the deeds that are its own come from them. -/
theorem run_takes (hu : ∀ f ∈ t.fixtures, f.isUsable = true) (during : Instant → Prop) {user : Nat}
    (schedule : List Tick) : ∀ (f : Field σ (Recorded γ)) {u : User σ},
      (∀ tick ∈ schedule, during tick.now) → f.users[user]? = some u →
      ∃ u', (f.run t c deadline schedule).users[user]? = some u' ∧
        u.Takes γ t c deadline during (deedsOf user (f.deeds t c deadline schedule)) u' := by
  induction schedule with
  | nil =>
    intro f u _ hget
    exact ⟨u, hget, .rest u⟩
  | cons tick schedule ih =>
    intro f u hat hget
    have hlater : ∀ later ∈ schedule, during later.now :=
      fun later hl => hat later (List.mem_cons_of_mem _ hl)
    simp only [Field.deeds, deedsOf_append]
    rcases field_step c deadline hu f tick with
      ⟨-, hd, hs⟩ | ⟨v, deed, v', s', hv, hd, hstep, hs⟩
    · rw [hd]
      exact ih (f.step t c deadline tick) hlater (by rw [hs]; exact hget)
    · rw [hd]
      by_cases hsame : tick.user = user
      · subst hsame
        rw [hget] at hv
        cases hv
        have hget' : (f.step t c deadline tick).users[tick.user]? = some v' := by
          rw [hs]
          exact List.getElem?_set_self (List.getElem?_eq_some_iff.1 hget).1
        obtain ⟨u'', hend, htakes⟩ := ih (f.step t c deadline tick) hlater hget'
        rw [deedsOf_self]
        exact ⟨u'', hend, .step (hat tick List.mem_cons_self) hstep htakes⟩
      · have hget' : (f.step t c deadline tick).users[user]? = some u := by
          rw [hs]
          exact (List.getElem?_set_ne hsame).trans hget
        rw [deedsOf_other hsame]
        exact ih (f.step t c deadline tick) hlater hget'

variable (t c deadline) in
/-- A schedule neither adds users nor takes any away, and only users do anything. -/
theorem run_users (schedule : List Tick) : ∀ f : Field σ (Recorded γ),
    (f.run t c deadline schedule).users.length = f.users.length ∧
      ∀ entry ∈ f.deeds t c deadline schedule, entry.1 < f.users.length := by
  induction schedule with
  | nil =>
    intro f
    exact ⟨rfl, by simp [Field.deeds]⟩
  | cons tick schedule ih =>
    intro f
    obtain ⟨hl, hlater⟩ := ih (f.step t c deadline tick)
    rw [field_step_length] at hl hlater
    refine ⟨hl, ?_⟩
    intro entry he
    rcases List.mem_append.1 he with he | he
    · obtain ⟨u, hu, hd⟩ := Option.bind_eq_some_iff.1 (Option.mem_toList.1 he)
      obtain ⟨deed, -, rfl⟩ := Option.map_eq_some_iff.1 hd
      exact (List.getElem?_eq_some_iff.1 hu).1
    · exact hlater entry he

/-! ## All deeds are somebody's -/

theorem flatMap_cons_perm {α : Type} (user : Nat) (a : α) (g : Nat → List α) {users : List Nat}
    (hn : users.Nodup) (hm : user ∈ users) :
    (users.flatMap fun k => if k = user then a :: g k else g k).Perm (a :: users.flatMap g) := by
  induction users with
  | nil => cases hm
  | cons k users ih =>
    rw [List.nodup_cons] at hn
    simp only [List.flatMap_cons]
    by_cases hk : k = user
    · have hrest : (users.flatMap fun j => if j = user then a :: g j else g j) = users.flatMap g := by
        apply List.flatMap_congr
        intro j hj
        exact if_neg (by rintro rfl; exact hn.1 (hk ▸ hj))
      rw [if_pos hk, hrest]
      simp
    · rw [if_neg hk]
      have hm' : user ∈ users := (List.mem_cons.1 hm).resolve_left (Ne.symm hk)
      exact ((ih hn.2 hm').append_left _).trans List.perm_middle

/-- The deeds of a schedule are those of the first user, of the second one and so on, in some order. -/
theorem deeds_perm {users : Nat} {deeds : List (Nat × Deed)} (h : ∀ entry ∈ deeds, entry.1 < users) :
    (deeds.map Prod.snd).Perm ((List.range users).flatMap (deedsOf · deeds)) := by
  induction deeds with
  | nil => simp [deedsOf]
  | cons entry deeds ih =>
    have hlater := ih fun later hl => h later (List.mem_cons_of_mem _ hl)
    have hsplit : (fun k => deedsOf k (entry :: deeds)) =
        fun k => if k = entry.1 then entry.2 :: deedsOf k deeds else deedsOf k deeds := by
      funext k
      by_cases hk : k = entry.1
      · simp [deedsOf, hk]
      · simp [deedsOf, hk, Ne.symm hk]
    rw [hsplit, List.map_cons]
    exact (hlater.cons _).trans (flatMap_cons_perm entry.1 entry.2 _ List.nodup_range
      (List.mem_range.2 (h entry List.mem_cons_self))).symm

theorem calls_perm {users : Nat} {deeds : List (Nat × Deed)} (h : ∀ entry ∈ deeds, entry.1 < users) :
    (callsIn (deeds.map Prod.snd)).Perm
      ((List.range users).flatMap fun user => callsIn (deedsOf user deeds)) := by
  have hperm := (deeds_perm h).filterMap Deed.call?
  rwa [List.filterMap_flatMap] at hperm

theorem records_perm {users : Nat} {deeds : List (Nat × Deed)}
    (h : ∀ entry ∈ deeds, entry.1 < users) :
    (recordsIn (deeds.map Prod.snd)).Perm
      ((List.range users).flatMap fun user => recordsIn (deedsOf user deeds)) := by
  have hperm := (deeds_perm h).filterMap Deed.record?
  rwa [List.filterMap_flatMap] at hperm

end LunchRush.Load
