import LunchRush.Load.Run
/-!
# Runs by a schedule

`runScheduled` is a load run whose users take their steps as a schedule says, at the instants that it
says, and which has an answer once all of them have stopped. The run whose users take their turns one
after the other is one of these (`run_scheduled`).
-/

namespace LunchRush.Load

open LunchRush.Random (Source)

variable {σ γ : Type} [Source σ] [Gateway γ]

/-- A run that starts and is summed up at some instants, and the gateway after it. There is no answer
while a user has not stopped. -/
def runScheduled (t : Traffic) (c : LoadConfig) (actors : List (Actor σ)) (gateway : γ)
    (started finished : Instant) (schedule : List Tick) : Option (Except Refusal Summary) × γ :=
  match c.check with
  | .error e => (some (.error (.invalid e)), gateway)
  | .ok () =>
    match deadline? started c.duration with
    | none => (some (.error (.fault .clockOverflow)), gateway)
    | some deadline =>
      let f := (Field.start actors gateway).run t c deadline schedule
      (if f.users.all (·.phase.isStopped) then some (f.summary (.ofNanos (finished - started)))
        else none, f.shared.gateway)

variable {t : Traffic} {c : LoadConfig} {deadline : Instant}

/-! ## Runs with a summary -/

omit [Source σ] [Gateway γ] in
theorem stopped_of_no_faults {f : Field σ γ} (hs : ∀ u ∈ f.users, u.phase.isStopped = true)
    (hf : f.faults = []) : ∀ u ∈ f.users, u.phase = .stopped none := by
  intro u hu
  have hstopped := hs u hu
  have hfault := List.filterMap_eq_nil_iff.1 hf u hu
  cases hp : u.phase with
  | deciding wake | recording outcome placed | thinking wait =>
    rw [hp] at hstopped
    cases hstopped
  | stopped fault =>
    rw [hp] at hfault
    exact congrArg Phase.stopped hfault

omit [Source σ] [Gateway γ] in
theorem field_summary_eq_ok {f : Field σ γ} {elapsed : Duration} {s : Summary}
    (h : f.summary elapsed = .ok s) : f.faults = [] ∧ f.shared.summary.finish elapsed = .ok s := by
  unfold Field.summary at h
  split at h
  · cases h
  · split at h
    · cases h
    · rename_i hf
      refine ⟨hf, ?_⟩
      cases hs : f.shared.summary.finish elapsed with
      | error fault =>
        rw [hs] at h
        cases h
      | ok s' =>
        rw [hs] at h
        cases h
        rfl

/-- A run with a summary was a sound one, and all its users have stopped without a fault. -/
theorem runScheduled_eq_ok {actors : List (Actor σ)} {gateway gateway' : γ}
    {started finished : Instant} {schedule : List Tick} {s : Summary}
    (h : runScheduled t c actors gateway started finished schedule = (some (.ok s), gateway')) :
    ∃ deadline, c.check = .ok () ∧ deadline? started c.duration = some deadline ∧
      (∀ u ∈ ((Field.start actors gateway).run t c deadline schedule).users,
        u.phase = .stopped none) ∧
      ((Field.start actors gateway).run t c deadline schedule).shared.summary.finish
        (.ofNanos (finished - started)) = .ok s ∧
      gateway' = ((Field.start actors gateway).run t c deadline schedule).shared.gateway := by
  unfold runScheduled at h
  split at h
  · cases h
  · rename_i hc
    split at h
    · cases h
    · rename_i deadline hd
      simp only [Prod.mk.injEq, Option.ite_none_right_eq_some, Option.some.injEq] at h
      obtain ⟨⟨hall, hs⟩, rfl⟩ := h
      have hstopped := List.all_eq_true.1 hall
      obtain ⟨hf, hfinish⟩ := field_summary_eq_ok hs
      exact ⟨deadline, hc, hd, stopped_of_no_faults hstopped hf, hfinish, rfl⟩

/-! ## Steps of a schedule -/

theorem field_run_cons (f : Field σ γ) (tick : Tick) (schedule : List Tick) :
    f.run t c deadline (tick :: schedule) = (f.step t c deadline tick).run t c deadline schedule := rfl

theorem field_run_append (f : Field σ γ) (schedule later : List Tick) :
    f.run t c deadline (schedule ++ later) =
      (f.run t c deadline schedule).run t c deadline later := by
  simp [Field.run]

variable (t c deadline) in
theorem field_step_of_get {f : Field σ γ} (tick : Tick) {u : User σ}
    (h : f.users[tick.user]? = some u) :
    f.step t c deadline tick = ⟨f.users.set tick.user (u.step t c deadline tick.now f.shared).1,
      (u.step t c deadline tick.now f.shared).2⟩ := by
  unfold Field.step
  rw [h]

variable (t c deadline) in
/-- A user takes its own steps only. -/
theorem field_step_user {f : Field σ γ} {user : Nat} {u : User σ} (h : f.users[user]? = some u)
    (tick : Tick) : (f.step t c deadline tick).users[user]? =
      some (if tick.user = user then (u.step t c deadline tick.now f.shared).1 else u) := by
  by_cases hsame : tick.user = user
  · subst hsame
    rw [field_step_of_get t c deadline tick h, if_pos rfl]
    exact List.getElem?_set_self (List.getElem?_eq_some_iff.1 h).1
  · rw [if_neg hsame]
    unfold Field.step
    split
    · exact h
    · exact (List.getElem?_set_ne hsame).trans h

/-- What no step of a user changes holds of all users after a schedule. -/
theorem run_keeps {P : User σ → Prop}
    (hstep : ∀ now (u : User σ) (s : Shared γ), P u → P (u.step t c deadline now s).1)
    (schedule : List Tick) : ∀ f : Field σ γ, (∀ u ∈ f.users, P u) →
      ∀ u ∈ (f.run t c deadline schedule).users, P u := by
  induction schedule with
  | nil =>
    intro f hf
    exact hf
  | cons tick schedule ih =>
    intro f hf
    apply ih (f.step t c deadline tick)
    intro u hu
    cases hget : f.users[tick.user]? with
    | none =>
      unfold Field.step at hu
      rw [hget] at hu
      exact hf u hu
    | some v =>
      rw [field_step_of_get t c deadline tick hget] at hu
      rcases List.mem_or_eq_of_mem_set hu with hmem | rfl
      · exact hf u hmem
      · exact hstep tick.now v f.shared (hf v (List.mem_of_getElem? hget))

variable (t c deadline) in
theorem field_step_length (f : Field σ γ) (tick : Tick) :
    (f.step t c deadline tick).users.length = f.users.length := by
  unfold Field.step
  split <;> simp

theorem run_length (schedule : List Tick) : ∀ f : Field σ γ,
    (f.run t c deadline schedule).users.length = f.users.length := by
  induction schedule with
  | nil =>
    intro f
    rfl
  | cons tick schedule ih =>
    intro f
    exact (ih (f.step t c deadline tick)).trans (field_step_length t c deadline f tick)

/-! ## Users one after the other -/

variable (t c deadline) in
/-- A turn is three steps of a schedule. -/
theorem turn_scheduled {f : Field σ γ} {user : Nat} {u : User σ} (h : f.users[user]? = some u)
    (now : Instant) :
    f.run t c deadline [⟨user, now⟩, ⟨user, now + turnNanos⟩, ⟨user, now + turnNanos⟩] =
      ⟨f.users.set user (u.turn t c deadline now f.shared).1, (u.turn t c deadline now f.shared).2⟩ := by
  have hlt := (List.getElem?_eq_some_iff.1 h).1
  have hget (v : User σ) (s : Shared γ) : (⟨f.users.set user v, s⟩ : Field σ γ).users[user]? = some v :=
    List.getElem?_set_self hlt
  rw [field_run_cons, field_step_of_get t c deadline ⟨user, now⟩ h, field_run_cons,
    field_step_of_get t c deadline ⟨user, now + turnNanos⟩ (hget _ _), field_run_cons]
  dsimp only
  rw [List.set_set, field_step_of_get t c deadline ⟨user, now + turnNanos⟩ (hget _ _)]
  dsimp only
  rw [List.set_set]
  rfl

variable (t c deadline) in
/-- The turns of one user are steps of a schedule. -/
theorem runAlone_scheduled (user fuel : Nat) : ∀ (now : Instant) (f : Field σ γ) {u : User σ},
    f.users[user]? = some u → ∃ schedule, f.run t c deadline schedule =
      ⟨f.users.set user (u.runAlone t c deadline fuel now f.shared).1,
        (u.runAlone t c deadline fuel now f.shared).2⟩ := by
  have hstays : ∀ (f : Field σ γ) {u : User σ}, f.users[user]? = some u →
      f = ⟨f.users.set user u, f.shared⟩ := by
    intro f u hget
    obtain ⟨hlt, rfl⟩ := List.getElem?_eq_some_iff.1 hget
    simp
  induction fuel with
  | zero =>
    intro now f u hget
    exact ⟨[], hstays f hget⟩
  | succ fuel ih =>
    intro now f u hget
    unfold User.runAlone
    split
    · exact ⟨[], hstays f hget⟩
    · dsimp only
      have hturn := turn_scheduled t c deadline hget now
      generalize u.turn t c deadline now f.shared = turn at hturn ⊢
      have hget' : (f.run t c deadline [⟨user, now⟩, ⟨user, now + turnNanos⟩,
          ⟨user, now + turnNanos⟩]).users[user]? = some turn.1 := by
        rw [hturn]
        exact List.getElem?_set_self (List.getElem?_eq_some_iff.1 hget).1
      obtain ⟨later, hlater⟩ := ih (turn.1.phase.next (now + turnNanos)) _ hget'
      refine ⟨[⟨user, now⟩, ⟨user, now + turnNanos⟩, ⟨user, now + turnNanos⟩] ++ later, ?_⟩
      rw [field_run_append, hlater, hturn]
      simp

theorem runAlone_of_stopped (fuel : Nat) (now : Instant) {u : User σ} (s : Shared γ)
    (h : u.phase.isStopped = true) : u.runAlone t c deadline fuel now s = (u, s) := by
  cases fuel with
  | zero => rfl
  | succ fuel =>
    unfold User.runAlone
    rw [if_pos h]

omit [Gateway γ] in
/-- Who hands over an outcome stops, or thinks next. -/
theorem hand_phase (now : Instant) (outcome : Outcome) (placed : Instant) (u : User σ) (s : Shared γ) :
    (u.hand c now outcome placed s).1.phase.isStopped = true ∨
      ∃ wait, (u.hand c now outcome placed s).1.phase = .thinking wait := by
  unfold User.hand
  split
  · exact .inl rfl
  · dsimp only
    split
    · exact .inl rfl
    · exact .inr ⟨_, rfl⟩

theorem step_of_stopped (now : Instant) {u : User σ} (s : Shared γ) (h : u.phase.isStopped = true) :
    u.step t c deadline now s = (u, s) := by
  unfold User.step
  cases hp : u.phase with
  | stopped fault => rfl
  | deciding wake | recording outcome placed | thinking wait =>
    rw [hp] at h
    cases h

variable (t c deadline) in
/-- A user that is awake stops, or it hands over an outcome next, and then the deadline has not come. -/
theorem decide_phase (now : Instant) (u : User σ) (s : Shared γ) :
    (u.decide t c deadline now s).1.phase.isStopped = true ∨
      now < deadline ∧ ∃ outcome, (u.decide t c deadline now s).1.phase = .recording outcome now := by
  unfold User.decide
  split
  · exact .inl rfl
  · rename_i hend
    have hnow : now < deadline := by
      simp only [Bool.or_eq_true, decide_eq_true_eq, not_or, Nat.not_le] at hend
      exact hend.1
    split
    · exact .inl rfl
    · exact .inr ⟨hnow, _, rfl⟩

/-- A turn that does not stop the user moves the clock on, from before the deadline, and the user sleeps
until then at the latest. -/
theorem turn_phase {now wake : Instant} {u : User σ} (s : Shared γ) (h : u.phase = .deciding wake)
    (hw : wake ≤ now) : (u.turn t c deadline now s).1.phase.isStopped = true ∨
      now < deadline ∧ ∃ wake, (u.turn t c deadline now s).1.phase = .deciding wake := by
  have hdecide : u.step t c deadline now s = u.decide t c deadline now s := by
    unfold User.step
    rw [h]
    exact if_neg (Nat.not_lt.2 hw)
  unfold User.turn
  dsimp only
  rw [hdecide]
  rcases decide_phase t c deadline now u s with hstopped | ⟨hnow, outcome, hrecording⟩
  · rw [step_of_stopped _ _ hstopped, step_of_stopped _ _ hstopped]
    exact .inl hstopped
  · generalize u.decide t c deadline now s = decided at hrecording ⊢
    have hhand : decided.1.step t c deadline (now + turnNanos) decided.2 =
        decided.1.hand c (now + turnNanos) outcome now decided.2 := by
      unfold User.step
      rw [hrecording]
    rw [hhand]
    rcases hand_phase (now + turnNanos) outcome now decided.1 decided.2 with hstopped | ⟨wait, hthinking⟩
    · rw [step_of_stopped _ _ hstopped]
      exact .inl hstopped
    · refine .inr ⟨hnow, wakeAt deadline (now + turnNanos) wait, ?_⟩
      unfold User.step
      rw [hthinking]

theorem le_next (now : Instant) (phase : Phase) : now ≤ phase.next now := by
  cases phase with
  | deciding wake => exact Nat.le_max_left now wake
  | recording outcome placed | thinking wait | stopped fault => exact Nat.le_refl now

/-- A user that may take a turn after the deadline has stopped by then. -/
theorem runAlone_stops (fuel : Nat) : ∀ {now wake : Instant} {u : User σ} (s : Shared γ),
    u.phase = .deciding wake → wake ≤ now → deadline ≤ now + turnNanos * fuel →
      (u.runAlone t c deadline (fuel + 1) now s).1.phase.isStopped = true := by
  induction fuel with
  | zero =>
    intro now wake u s hp hw hd
    have hrunning : ¬u.phase.isStopped = true := by simp [hp, Phase.isStopped]
    unfold User.runAlone
    rw [if_neg hrunning]
    dsimp only
    rcases turn_phase s hp hw with hstopped | ⟨hnow, -⟩
    · rw [runAlone_of_stopped _ _ _ hstopped]
      exact hstopped
    · exact absurd (Nat.lt_of_lt_of_le hnow hd) (Nat.lt_irrefl now)
  | succ fuel ih =>
    intro now wake u s hp hw hd
    have hrunning : ¬u.phase.isStopped = true := by simp [hp, Phase.isStopped]
    unfold User.runAlone
    rw [if_neg hrunning]
    dsimp only
    rcases turn_phase (t := t) (c := c) s hp hw with hstopped | ⟨-, later, hdeciding⟩
    · rw [runAlone_of_stopped _ _ _ hstopped]
      exact hstopped
    · have hnext := le_next (now + turnNanos) (u.turn t c deadline now s).1.phase
      refine ih _ hdeciding ?_ ?_
      · rw [hdeciding]
        exact Nat.le_max_right _ later
      · calc deadline ≤ now + turnNanos * (fuel + 1) := hd
          _ = now + turnNanos + turnNanos * fuel := by
            rw [Nat.mul_succ, Nat.add_assoc, Nat.add_comm turnNanos]
          _ ≤ _ := Nat.add_le_add_right hnext _

variable (t c deadline) in
theorem runInTurn_scheduled (users : List (User σ)) : ∀ (before : List (User σ)) (s : Shared γ),
    (∃ schedule, Field.run t c deadline ⟨before ++ users, s⟩ schedule =
      ⟨before ++ (runInTurn t c deadline 0 users s).1, (runInTurn t c deadline 0 users s).2⟩) := by
  induction users with
  | nil =>
    intro before s
    exact ⟨[], rfl⟩
  | cons u users ih =>
    intro before s
    have hget : (⟨before ++ u :: users, s⟩ : Field σ γ).users[before.length]? = some u := by simp
    obtain ⟨alone, halone⟩ := runAlone_scheduled t c deadline
      before.length (turns c) 0 ⟨before ++ u :: users, s⟩ hget
    let u' := u.runAlone t c deadline (turns c) 0 s
    obtain ⟨later, hlater⟩ := ih (before ++ [u'.1]) u'.2
    refine ⟨alone ++ later, ?_⟩
    rw [field_run_append, halone]
    simpa [runInTurn, u'] using hlater

variable (t c deadline) in
/-- In their turns all users stop. -/
theorem runInTurn_stops (users : List (User σ)) (hp : ∀ u ∈ users, u.phase = .deciding 0)
    (hd : deadline ≤ turnNanos * (c.duration.nanos / turnNanos + 1)) : ∀ s : Shared γ,
      ∀ u ∈ (runInTurn t c deadline 0 users s).1, u.phase.isStopped = true := by
  induction users with
  | nil =>
    intro s u hu
    cases hu
  | cons first users ih =>
    intro s u hu
    rcases List.mem_cons.1 hu with rfl | hu
    · apply runAlone_stops _ s (hp first List.mem_cons_self) (Nat.le_refl 0)
      rw [Nat.zero_add]
      exact hd
    · exact ih (fun u hu => hp u (List.mem_cons_of_mem _ hu)) _ u hu

/-- The run whose users take their turns one after the other goes by a schedule. -/
theorem run_scheduled (t : Traffic) (c : LoadConfig) (actors : List (Actor σ)) (gateway : γ) :
    ∃ schedule, runScheduled t c actors gateway 0 0 schedule =
      (some (run t c actors gateway).1, (run t c actors gateway).2) := by
  unfold runScheduled run
  cases hc : c.check with
  | error e => exact ⟨[], rfl⟩
  | ok _ =>
    cases hd : deadline? 0 c.duration with
    | none => exact ⟨[], rfl⟩
    | some deadline =>
      have hdeadline : deadline = c.duration.nanos := by
        unfold deadline? at hd
        split at hd
        · cases hd
          exact Nat.zero_add _
        · cases hd
      obtain ⟨schedule, hs⟩ := runInTurn_scheduled t c deadline
        (Field.start actors gateway).users [] (Field.start actors gateway).shared
      refine ⟨schedule, ?_⟩
      have hstops := runInTurn_stops t c deadline (Field.start actors gateway).users (by simp [Field.start])
        (by rw [hdeadline]; exact Nat.le_of_lt (Nat.lt_mul_div_succ _ (by decide))) (Field.start actors gateway).shared
      have hrun : (Field.start actors gateway).run t c deadline schedule =
          ⟨(runInTurn t c deadline 0 (Field.start actors gateway).users
              (Field.start actors gateway).shared).1,
            (runInTurn t c deadline 0 (Field.start actors gateway).users
              (Field.start actors gateway).shared).2⟩ := hs
      dsimp only
      rw [hrun, if_pos (List.all_eq_true.2 hstops)]
      rfl

end LunchRush.Load
