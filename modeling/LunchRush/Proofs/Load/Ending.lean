import LunchRush.Proofs.Load.Accounts
import LunchRush.Proofs.Load.Thinking
import LunchRush.Proofs.Random.Chance
/-!
# How runs end

A run is refused before it starts, or stops at a deadline that its clock cannot show, or goes on
until its users have stopped. As long as a time to think can be drawn a user meets no fault but a draw
that never ends (`step_sound`). It does not sleep past the deadline (`step_wakes`), from which on it takes
three more steps at most (`run_remaining`). So a run whose users all get to take these is summed up, if
their latencies have a sum of 64 bits (`runs_end`).
-/

namespace LunchRush.Load

open LunchRush.Random (Source PassesOver after)

variable {σ γ : Type} [Source σ] [Gateway γ] {t : Traffic} {c : LoadConfig} {deadline : Instant}

/-! ## Faults -/

/-- What a user has drawn it has drawn from a generator, and the only fault that it may have met is that
this generator passes over its words. -/
structure User.Sound (generator : σ) (u : User σ) : Prop where
  drawn : ∃ taken, u.actor.generator = after taken generator
  fault : ∀ fault, u.phase = .stopped (some fault) → fault = .endless ∧ PassesOver generator

/-- Every draw of a time to think gives one. -/
def CanThink (σ : Type) [Source σ] (c : LoadConfig) : Prop :=
  ∀ a : Actor σ, ∃ wait, (a.think c.minWait c.maxWait).1 = .ok wait

variable {generator : σ}

theorem User.Sound.after {u u' : User σ} (h : u.Sound generator) (taken : Nat)
    (hd : u'.actor.generator = after taken u.actor.generator)
    (hf : ∀ fault, u'.phase ≠ .stopped (some fault)) : u'.Sound generator := by
  obtain ⟨before, hb⟩ := h.drawn
  exact ⟨⟨before + taken, by rw [hd, hb, Random.after_after]⟩, fun fault hp => absurd hp (hf fault)⟩

theorem decide_sound (hu : ∀ f ∈ t.fixtures, f.isUsable = true) (now : Instant) {u : User σ}
    (s : Shared γ) (h : u.Sound generator) : (u.decide t c deadline now s).1.Sound generator := by
  unfold User.decide
  split
  · exact ⟨h.drawn, nofun⟩
  · rcases place_drawn hu u.actor s.gateway with
      ⟨-, taken, hplace⟩ | ⟨-, order, taken, events, -, hplace⟩ | ⟨-, -, hpasses, hplace⟩
    · rw [hplace]
      exact h.after taken rfl nofun
    · rw [hplace]
      exact h.after taken rfl nofun
    · rw [hplace]
      refine ⟨h.drawn, fun fault hp => ?_⟩
      obtain ⟨before, hb⟩ := h.drawn
      rw [hb] at hpasses
      cases hp
      exact ⟨rfl, hpasses.of_after⟩

omit [Gateway γ] in
theorem hand_sound (hc : CanThink σ c) (now : Instant) (outcome : Outcome) (placed : Instant)
    {u : User σ} (s : Shared γ) (h : u.Sound generator) :
    (u.hand c now outcome placed s).1.Sound generator := by
  unfold User.hand
  split
  · exact ⟨h.drawn, nofun⟩
  · dsimp only
    obtain ⟨wait, hwait⟩ := hc u.actor
    split
    · rename_i hthink
      rw [hthink] at hwait
      cases hwait
    · rename_i hthink
      obtain ⟨taken, -, rfl⟩ := think_drawn hthink
      exact h.after taken rfl nofun

/-- The only fault that a step of a user meets is that an order is drawn for ever. -/
theorem step_sound (hu : ∀ f ∈ t.fixtures, f.isUsable = true) (hc : CanThink σ c) (now : Instant)
    {u : User σ} (s : Shared γ) (h : u.Sound generator) :
    (u.step t c deadline now s).1.Sound generator := by
  unfold User.step
  split
  · split
    · exact h
    · exact decide_sound hu now s h
  · exact hand_sound hc now _ _ s h
  · exact ⟨h.drawn, nofun⟩
  · exact h

/-! ## Sleep -/

/-- A user that is asleep wakes up before the deadline has passed. -/
def User.WakesBy (deadline : Instant) (u : User σ) : Prop :=
  ∀ wake, u.phase = .deciding wake → wake ≤ deadline

theorem step_wakes (now : Instant) {u : User σ} (s : Shared γ) (h : u.WakesBy deadline) :
    (u.step t c deadline now s).1.WakesBy deadline := by
  cases hp : u.phase with
  | deciding wake =>
    unfold User.step
    rw [hp]
    dsimp only
    split
    · exact h
    · intro wake hwake
      rcases decide_phase t c deadline now u s with
        hstopped | ⟨-, outcome, hrecording⟩
      · rw [hwake] at hstopped
        cases hstopped
      · rw [hwake] at hrecording
        cases hrecording
  | recording outcome placed =>
    intro wake hwake
    unfold User.step at hwake
    rw [hp] at hwake
    rcases hand_phase (c := c) now outcome placed u s with hstopped | ⟨wait, hthinking⟩
    · rw [hwake] at hstopped
      cases hstopped
    · rw [hwake] at hthinking
      cases hthinking
  | thinking wait =>
    intro wake hwake
    unfold User.step at hwake
    rw [hp] at hwake
    cases hwake
    exact Nat.min_le_right _ deadline
  | stopped fault =>
    rw [step_of_stopped now s (by rw [hp]; rfl)]
    exact h

/-! ## The steps that are left -/

/-- How many steps a user takes from the deadline on. -/
def Phase.remaining : Phase → Nat
  | .recording _ _ => 3
  | .thinking _ => 2
  | .deciding _ => 1
  | .stopped _ => 0

theorem Phase.remaining_le (phase : Phase) : phase.remaining ≤ 3 := by
  cases phase <;> simp [remaining]

theorem Phase.isStopped_iff (phase : Phase) : phase.isStopped = true ↔ phase.remaining = 0 := by
  cases phase <;> simp [isStopped, remaining]

/-- From the deadline on every step is one of the last. -/
theorem step_remaining {now : Instant} (hnow : deadline ≤ now) {u : User σ} (hw : u.WakesBy deadline)
    (s : Shared γ) : (u.step t c deadline now s).1.phase.remaining ≤ u.phase.remaining - 1 := by
  cases hp : u.phase with
  | deciding wake =>
    have hawake : ¬ now < wake := Nat.not_lt.2 (Nat.le_trans (hw wake hp) hnow)
    have hstep : u.step t c deadline now s = (u.stop none, s) := by
      unfold User.step User.decide
      simp [hp, hawake, hnow]
    rw [hstep]
    exact Nat.le_refl 0
  | recording outcome placed =>
    have hstep : u.step t c deadline now s = u.hand c now outcome placed s := by
      unfold User.step
      rw [hp]
    rw [hstep]
    rcases hand_phase now outcome placed u s with hs | ⟨wait, hthinking⟩
    · rw [(Phase.isStopped_iff _).1 hs]
      exact Nat.zero_le _
    · rw [hthinking]
      exact Nat.le_refl 2
  | thinking wait =>
    unfold User.step
    rw [hp]
    exact Nat.le_refl 1
  | stopped fault =>
    rw [step_of_stopped now s (by rw [hp]; rfl), hp]
    exact Nat.le_refl 0

/-- From the deadline on a user has one step less to take after each of its own. -/
theorem run_remaining {user : Nat} (schedule : List Tick)
    (hat : ∀ tick ∈ schedule, deadline ≤ tick.now) : ∀ (f : Field σ γ) {u : User σ},
      f.users[user]? = some u → u.WakesBy deadline →
      ∃ u', (f.run t c deadline schedule).users[user]? = some u' ∧
        u'.phase.remaining ≤ u.phase.remaining - schedule.countP (·.user = user) := by
  induction schedule with
  | nil =>
    intro f u hget _
    exact ⟨u, hget, Nat.le_refl _⟩
  | cons tick schedule ih =>
    intro f u hget hw
    obtain ⟨hnow, hlater⟩ := List.forall_mem_cons.1 hat
    have hget' := field_step_user t c deadline hget tick
    by_cases hsame : tick.user = user
    · rw [if_pos hsame] at hget'
      obtain ⟨u', hu', hle⟩ := ih hlater (f.step t c deadline tick) hget' (step_wakes _ _ hw)
      refine ⟨u', hu', ?_⟩
      have hstep := step_remaining (t := t) (c := c) hnow hw f.shared
      rw [List.countP_cons]
      simp only [hsame, decide_true, if_true]
      omega
    · rw [if_neg hsame] at hget'
      obtain ⟨u', hu', hle⟩ := ih hlater (f.step t c deadline tick) hget' hw
      refine ⟨u', hu', ?_⟩
      simpa [List.countP_cons, hsame] using hle

/-! ## The end -/

/-- Every user takes three steps at or after the deadline. -/
def Outlasts (users : Nat) (deadline : Instant) (schedule : List Tick) : Prop :=
  ∃ before after, schedule = before ++ after ∧ (∀ tick ∈ after, deadline ≤ tick.now) ∧
    ∀ user < users, 3 ≤ after.countP (·.user = user)

theorem all_stopped {f : Field σ γ} {schedule : List Tick}
    (h : Outlasts f.users.length deadline schedule) (hw : ∀ u ∈ f.users, u.WakesBy deadline) :
    (f.run t c deadline schedule).users.all (·.phase.isStopped) = true := by
  obtain ⟨before, after, rfl, hat, hcount⟩ := h
  rw [List.all_eq_true]
  intro u hu
  obtain ⟨user, hget⟩ := List.mem_iff_getElem?.1 hu
  have hlt : user < f.users.length := by
    have hlt := (List.getElem?_eq_some_iff.1 hget).1
    rwa [run_length] at hlt
  have hlt' : user < (f.run t c deadline before).users.length := by rwa [run_length]
  have hwakes := run_keeps (t := t) (c := c) (fun now _ s => step_wakes now s) before f hw _
    (List.getElem_mem hlt')
  rw [field_run_append] at hget
  obtain ⟨u', hget', hle⟩ := run_remaining (t := t) (c := c) after hat
    (f.run t c deadline before) (List.getElem?_eq_getElem hlt') hwakes
  have hthree := Phase.remaining_le ((f.run t c deadline before).users[user]).phase
  have hsteps := hcount user hlt
  rw [hget] at hget'
  cases hget'
  rw [Phase.isStopped_iff]
  omega

/-- The latencies that are recorded in a run. -/
def latenciesIn (t : Traffic) (c : LoadConfig) (actors : List (Actor σ)) (gateway : γ)
    (started : Instant) (schedule : List Tick) : List Nat :=
  ((Field.start actors gateway).run t c (started + c.duration.nanos) schedule).shared.summary.latencies

/-- How a run comes to its end, whose users draw from generators and record latencies. -/
structure Ends (c : LoadConfig) (generators : Nat → σ) (started : Instant) (schedule : List Tick)
    (latencies : List Nat) (gateway : γ) (run : Option (Except Refusal Summary) × γ) : Prop where
  /-- A run is refused exactly for its numbers, -/
  refused_iff : (∃ e, run.1 = some (.error (.invalid e))) ↔ c.users = 0 ∨ c.maxWait < c.minWait
  /-- and then nothing has happened. -/
  refused : (∃ e, run.1 = some (.error (.invalid e))) → run.2 = gateway
  /-- A deadline that the clock cannot show stops a run before it starts. -/
  overflowed : c.check = .ok () → Instant.limit ≤ started + c.duration.nanos →
    run = (some (.error (.fault .clockOverflow)), gateway)
  /-- Any other run, whose waits do not round to 2^64 seconds, as none does that comes in milliseconds
  of 64 bits, is summed up in the end. It stops only where 64 bits do not hold the sum of its latencies,
  and it goes on for ever only where a user passes over all words of its generator from some place on. -/
  sound : c.check = .ok () → started + c.duration.nanos < Instant.limit →
    c.maxWait.secs < 2 ^ 64 - 2 ^ 10 → ∀ answer, run.1 = some answer →
      (latencies.sum < 2 ^ 64 ∧ ∃ s, answer = .ok s) ∨
      (2 ^ 64 ≤ latencies.sum ∧ answer = .error (.fault .sumOverflow)) ∨
      (∃ user < c.users, PassesOver (generators user)) ∧ answer = .error (.fault .endless)
  /-- It has its answer once its users have got to the deadline. -/
  summed_up : c.check = .ok () → started + c.duration.nanos < Instant.limit →
    c.maxWait.secs < 2 ^ 64 - 2 ^ 10 →
    Outlasts c.users (started + c.duration.nanos) schedule →
    (∀ user < c.users, ¬ PassesOver (generators user)) →
    ∃ answer, run.1 = some answer ∧ ((∃ s, answer = .ok s) ↔ latencies.sum < 2 ^ 64)

theorem check_eq_error_iff (c : LoadConfig) :
    (∃ e, c.check = .error e) ↔ c.users = 0 ∨ c.maxWait < c.minWait := by
  cases hc : c.check with
  | error e =>
    have hnot := mt (LoadConfig.check_eq_ok_iff c).2 (by rw [hc]; nofun)
    simp only [Except.error.injEq, exists_eq', true_iff]
    by_cases hz : c.users = 0
    · exact .inl hz
    · exact .inr (by_contra fun hw => hnot ⟨hz, hw⟩)
  | ok v =>
    obtain ⟨hz, hw⟩ := (LoadConfig.check_eq_ok_iff c).1 hc
    simp [hz, hw]

theorem runScheduled_of_error {e : LoadError} (h : c.check = .error e) (actors : List (Actor σ))
    (gateway : γ) (started finished : Instant) (schedule : List Tick) :
    runScheduled t c actors gateway started finished schedule =
      (some (.error (.invalid e)), gateway) := by
  unfold runScheduled
  rw [h]

theorem runScheduled_of_overflow (h : c.check = .ok ()) {started : Instant}
    (hd : Instant.limit ≤ started + c.duration.nanos) (actors : List (Actor σ)) (gateway : γ)
    (finished : Instant) (schedule : List Tick) :
    runScheduled t c actors gateway started finished schedule =
      (some (.error (.fault .clockOverflow)), gateway) := by
  unfold runScheduled deadline?
  rw [h, if_neg (Nat.not_lt.2 hd)]

omit [Source σ] [Gateway γ] in
theorem field_summary_ne_invalid (f : Field σ γ) (elapsed : Duration) (e : LoadError) :
    f.summary elapsed ≠ .error (.invalid e) := by
  unfold Field.summary
  split
  · nofun
  · split
    · nofun
    · cases f.shared.summary.finish elapsed <;> nofun

/-- A run that is not refused at the start is not refused later. -/
theorem not_invalid_of_ok (h : c.check = .ok ()) (actors : List (Actor σ)) (gateway : γ)
    (started finished : Instant) (schedule : List Tick) (e : LoadError) :
    (runScheduled t c actors gateway started finished schedule).1 ≠ some (.error (.invalid e)) := by
  unfold runScheduled
  rw [h]
  cases deadline? started c.duration with
  | none => nofun
  | some deadline =>
    dsimp only
    split
    · exact fun he => field_summary_ne_invalid _ _ e (Option.some.inj he)
    · nofun

theorem runScheduled_of_fits (h : c.check = .ok ()) {started : Instant}
    (hd : started + c.duration.nanos < Instant.limit) (actors : List (Actor σ)) (gateway : γ)
    (finished : Instant) (schedule : List Tick) :
    (runScheduled t c actors gateway started finished schedule).1 =
      if ((Field.start actors gateway).run t c (started + c.duration.nanos) schedule).users.all
          (·.phase.isStopped) then
        some (((Field.start actors gateway).run t c (started + c.duration.nanos) schedule).summary
          (.ofNanos (finished - started)))
      else none := by
  unfold runScheduled deadline?
  rw [h, if_pos hd]

variable (deadline) in
/-- The users of a run have met no fault but draws that never end. -/
theorem run_sound (hu : ∀ f ∈ t.fixtures, f.isUsable = true) (hc : CanThink σ c) (generators : Nat → σ)
    (gateway : γ) (schedule : List Tick) :
    ∀ u ∈ ((Field.start (usersOf c generators) gateway).run t c deadline schedule).users,
      ∃ user < c.users, u.Sound (generators user) := by
  apply run_keeps
  · rintro now u s ⟨user, hlt, hsound⟩
    exact ⟨user, hlt, step_sound hu hc now s hsound⟩
  · intro u hu
    obtain ⟨actor, ha, rfl⟩ := List.mem_map.1 hu
    obtain ⟨user, hlt, rfl⟩ := List.mem_map.1 ha
    exact ⟨user, List.mem_range.1 hlt, ⟨0, rfl⟩, nofun⟩

omit [Gateway γ] in
/-- What becomes of users who have met no fault but draws that never end. -/
theorem summary_of_sound {f : Field σ γ} {users : Nat} {generators : Nat → σ}
    (h : ∀ u ∈ f.users, ∃ user < users, u.Sound (generators user)) (elapsed : Duration) :
    (f.shared.summary.latencies.sum < 2 ^ 64 ∧ ∃ s, f.summary elapsed = .ok s) ∨
    (2 ^ 64 ≤ f.shared.summary.latencies.sum ∧ f.summary elapsed = .error (.fault .sumOverflow)) ∨
    (∃ user < users, PassesOver (generators user)) ∧ f.summary elapsed = .error (.fault .endless) := by
  have hfault : ∀ fault ∈ f.faults, fault = .endless ∧ ∃ user < users, PassesOver (generators user) := by
    intro fault hm
    obtain ⟨u, hu, hphase⟩ := List.mem_filterMap.1 hm
    obtain ⟨user, hlt, hsound⟩ := h u hu
    have hstopped : u.phase = .stopped (some fault) := by
      split at hphase
      · rename_i hp
        rw [hp, hphase]
      · cases hphase
    obtain ⟨he, hpasses⟩ := hsound.fault fault hstopped
    exact ⟨he, user, hlt, hpasses⟩
  unfold Field.summary
  cases hf : f.faults with
  | nil =>
    rw [if_neg List.not_mem_nil, Summary.finish_eq]
    by_cases hs : f.shared.summary.latencies.sum < 2 ^ 64
    · rw [if_pos hs]
      exact .inl ⟨hs, _, rfl⟩
    · rw [if_neg hs]
      exact .inr (.inl ⟨Nat.not_lt.1 hs, rfl⟩)
  | cons fault later =>
    obtain ⟨rfl, hpasses⟩ := hfault fault (by rw [hf]; exact List.mem_cons_self)
    rw [if_pos List.mem_cons_self]
    exact .inr (.inr ⟨hpasses, rfl⟩)

/-- Whatever the document, the gateway, the configuration and the generators of the users, and in
whatever order and at whatever instants the users take their steps: a run is refused or its deadline
lies beyond the clock, and then nothing has been sent, or it goes on until it is summed up. -/
theorem runs_end (d : Document) (customer : CustomerId) (accepted : List Nat) (seed : Option UInt64)
    (c : LoadConfig) (generators : Nat → σ) (gateway : γ) (started finished : Instant)
    (schedule : List Tick) :
    Ends c generators started schedule
      (latenciesIn (Traffic.ofDocument d customer accepted seed).1 c (usersOf c generators) gateway
        started schedule) gateway
      (runScheduled (Traffic.ofDocument d customer accepted seed).1 c (usersOf c generators) gateway
        started finished schedule) := by
  have hu := Traffic.ofDocument_isUsable d customer accepted seed
  have hthinks (hc : c.check = .ok ()) (hw : c.maxWait.secs < 2 ^ 64 - 2 ^ 10) : CanThink σ c := by
    intro a
    have hle := Nat.le_of_not_lt ((LoadConfig.check_eq_ok_iff c).1 hc).2
    obtain ⟨wait, hwait, -⟩ := Actor.exists_think hle hw a
    exact ⟨wait, hwait⟩
  have hcases (hc : c.check = .ok ()) (hw : c.maxWait.secs < 2 ^ 64 - 2 ^ 10) (elapsed : Duration) :=
    summary_of_sound (run_sound (started + c.duration.nanos) hu (hthinks hc hw) generators gateway
      schedule) elapsed
  constructor
  case refused_iff =>
    rw [← check_eq_error_iff]
    constructor
    · rintro ⟨e, he⟩
      cases hc : c.check with
      | error e' => exact ⟨e', rfl⟩
      | ok v => exact absurd he (not_invalid_of_ok hc _ gateway started finished schedule e)
    · rintro ⟨e, he⟩
      exact ⟨e, by rw [runScheduled_of_error he]⟩
  case refused =>
    rintro ⟨e, he⟩
    cases hc : c.check with
    | error e' => rw [runScheduled_of_error hc]
    | ok v => exact absurd he (not_invalid_of_ok hc _ gateway started finished schedule e)
  case overflowed =>
    intro hc hd
    exact runScheduled_of_overflow hc hd _ gateway finished schedule
  case sound =>
    intro hc hd hw answer hanswer
    rw [runScheduled_of_fits hc hd] at hanswer
    split at hanswer
    · cases hanswer
      exact hcases hc hw _
    · cases hanswer
  case summed_up =>
    intro hc hd hw hlasts hnone
    have hstart : ∀ u ∈ (Field.start (usersOf c generators) gateway).users,
        u.WakesBy (started + c.duration.nanos) := by
      intro u hu wake hwake
      obtain ⟨actor, -, rfl⟩ := List.mem_map.1 hu
      cases hwake
      exact Nat.zero_le _
    have hstopped := all_stopped (t := (Traffic.ofDocument d customer accepted seed).1) (c := c)
      (by simpa [Field.start, usersOf] using hlasts) hstart
    refine ⟨_, (runScheduled_of_fits hc hd ..).trans (if_pos hstopped), ?_⟩
    rcases hcases hc hw (.ofNanos (finished - started)) with ⟨hs, s, hsum⟩ | ⟨hs, hsum⟩ | ⟨⟨user, hlt, hp⟩, -⟩
    · rw [hsum]
      exact ⟨fun _ => hs, fun _ => ⟨s, rfl⟩⟩
    · rw [hsum]
      constructor
      · rintro ⟨s, hok⟩
        cases hok
      · exact fun hlt => absurd hlt (Nat.not_lt.2 hs)
    · exact absurd hp (hnone user hlt)

/-- After the crossing orders both users get to the deadline. -/
def crossingToDeadline : List Tick :=
  crossing ++ [⟨0, 30 * 10 ^ 9⟩, ⟨1, 30 * 10 ^ 9⟩, ⟨1, 31 * 10 ^ 9⟩, ⟨0, 32 * 10 ^ 9⟩, ⟨1, 33 * 10 ^ 9⟩,
    ⟨0, 33 * 10 ^ 9⟩]

/-- A generator whose words are all zero. -/
def zeros : Random.Stream := ⟨fun _ => 0, 0⟩

theorem runs_end_crossing :
    Outlasts pair.users (0 + pair.duration.nanos) crossingToDeadline ∧
      (∀ user < pair.users, ¬ PassesOver ((fun _ => zeros) user)) ∧
      ∃ s, (runScheduled (Traffic.ofDocument halfUsable ⟨"c"⟩ [200, 201] none).1 pair
        (usersOf pair fun _ => zeros) (⟨true, .ok [], [], [.ok ⟨201, ""⟩]⟩ : ScriptedGateway) 0 9
        crossingToDeadline).1 = some (.ok s) := by
  have hlasts : Outlasts pair.users (0 + pair.duration.nanos) crossingToDeadline :=
    ⟨crossing, _, rfl, by decide, by decide⟩
  have hnone : ∀ user < pair.users, ¬ PassesOver ((fun _ => zeros) user) :=
    fun _ _ => Random.not_passesOver_of_zeros (fun _ => rfl) 0
  have hends := runs_end halfUsable ⟨"c"⟩ [200, 201] none pair (fun _ => zeros)
    (⟨true, .ok [], [], [.ok ⟨201, ""⟩]⟩ : ScriptedGateway) 0 9 crossingToDeadline
  obtain ⟨answer, hanswer, hok⟩ := hends.summed_up rfl (by decide) (by decide) hlasts hnone
  obtain ⟨s, rfl⟩ := hok.2 (by decide +kernel)
  exact ⟨hlasts, hnone, s, hanswer⟩

/-- As many seconds as 64 bits count make a sound configuration, and a run that stops before it
starts. -/
theorem run_past_clock :
    let c : LoadConfig := ⟨1, .ofSecs (2 ^ 64 - 1), none, .zero, .zero⟩
    c.check = .ok () ∧
      (runScheduled (Traffic.ofDocument halfUsable ⟨"c"⟩ [200, 201] none).1 c
        (usersOf c fun _ => Random.ChaCha.ofSeed 7) (⟨true, .ok [], [], []⟩ : ScriptedGateway) 0 0 []).1 =
        some (.error (.fault .clockOverflow)) :=
  ⟨rfl, rfl⟩

end LunchRush.Load
