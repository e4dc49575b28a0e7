import LunchRush.Proofs.Seeding.Ensured
/-!
# The calls of a run

`Run.calls` are the calls that a run makes of its gateway, in order. Keeping a record of them
changes nothing (`ensure_erase`), and which calls they are shows in the way the run goes
(`attempts_calls`).
-/

namespace LunchRush.Seeding

/-! ## What attempts bring -/

theorem Attempt.isRegistered_outcome (a : Attempt) : a.outcome.isRegistered = a.fixture?.isSome := by
  unfold Attempt.outcome Attempt.fixture?
  cases a.result <;> rfl

/-- As many attempts are reported as registered as brought a fixture. -/
theorem registered_length (made : List Attempt) :
    ((made.map Attempt.outcome).filter Outcome.isRegistered).length =
      (made.filterMap Attempt.fixture?).length := by
  induction made with
  | nil => rfl
  | cons a made ih =>
    cases hf : a.fixture? with
    | none => simp [hf, Attempt.isRegistered_outcome, ih]
    | some f => simp [hf, Attempt.isRegistered_outcome, ih]

/-! ## Supplies -/

/-- The next `count` registrations of a supply. -/
def supplied {σ : Type} [Supply σ] : (count : Nat) → σ → List Registration
  | 0, _ => []
  | count + 1, supply => (Supply.next supply).1 :: supplied count (Supply.next supply).2

theorem supplied_length {σ : Type} [Supply σ] (count : Nat) (supply : σ) :
    (supplied count supply).length = count := by
  induction count generalizing supply with
  | zero => rfl
  | succ count ih => simp [supplied, ih]

namespace Run

variable {σ γ : Type}

/-- The run with an empty record of calls. -/
def recorded (r : Run σ γ) : Run σ (Recorded γ) :=
  ⟨r.seeder, ⟨⟨r.site.gateway, []⟩, r.site.files, r.site.log⟩⟩

/-- The run without its record of calls. -/
def erase (r : Run σ (Recorded γ)) : Run σ γ :=
  ⟨r.seeder, ⟨r.site.gateway.inner, r.site.files, r.site.log⟩⟩

variable [Gateway γ] [Supply σ]

/-- The calls of a run for `target` restaurants. -/
def calls (r : Run σ γ) (target : Nat) : List Call :=
  (r.recorded.ensure target).2.site.gateway.calls

/-! ## A record changes nothing -/

omit [Supply σ] in
theorem discover_erase (r : Run σ (Recorded γ)) :
    r.erase.discover = (r.discover.1, r.discover.2.erase) := by
  unfold discover
  simp only [erase, Gateway.list]
  rcases Gateway.list r.seeder.config.area r.site.gateway.inner with ⟨answer, g⟩
  cases answer with
  | ok listed => rfl
  | error e =>
    cases hp : r.seeder.config.policy with
    | bestEffort =>
      simp only [withGateway, hp]
      rfl
    | required => simp only [withGateway, hp]

theorem attempts_erase (count : Nat) : ∀ (first : Nat) (supply : σ) (g : Recorded γ),
    attempts count first supply g.inner =
      ((attempts count first supply g).1, (attempts count first supply g).2.1,
        (attempts count first supply g).2.2.inner) := by
  induction count with
  | zero => intro _ _ _; rfl
  | succ count ih =>
    intro first supply g
    have hlater := ih (first + 1) (Supply.next supply).2 (Gateway.register (Supply.next supply).1 g).2
    simp only [Gateway.register] at hlater
    simp only [attempts, Gateway.register, hlater]

theorem topUp_erase (r : Run σ (Recorded γ)) (needed : Nat) :
    r.erase.topUp needed = ((r.topUp needed).1, (r.topUp needed).2.erase) := by
  simp only [topUp, erase, attempts_erase]
  rfl

omit [Gateway γ] [Supply σ] in
theorem finish_erase (r : Run σ (Recorded γ)) (target : Nat) (found : List Fixture)
    (made : List Attempt) :
    r.erase.finish target found made =
      ((r.finish target found made).1, (r.finish target found made).2.erase) := by
  unfold finish
  by_cases hn : (found ++ made.filterMap Attempt.fixture?).isEmpty = true
  · simp only [hn, if_true]
    rfl
  · simp only [hn, Bool.false_eq_true, if_false, save, erase]
    rcases r.seeder.store.save ⟨found ++ made.filterMap Attempt.fixture?⟩ r.site.files with
      ⟨result, files⟩
    cases result <;> rfl

/-- A run with a record goes as the run without it. -/
theorem ensure_erase (r : Run σ (Recorded γ)) (target : Nat) :
    r.erase.ensure target = ((r.ensure target).1, (r.ensure target).2.erase) := by
  have hh : (r.erase.move .checkingAvailability).checkHealth =
      ((r.move .checkingAvailability).checkHealth.1,
        (r.move .checkingAvailability).checkHealth.2.erase) := rfl
  unfold ensure
  rw [hh]
  rcases (r.move .checkingAvailability).checkHealth with ⟨healthy, q⟩
  cases healthy with
  | false => rfl
  | true =>
    have hd : (q.erase.move .discovering).discover =
        ((q.move .discovering).discover.1, (q.move .discovering).discover.2.erase) :=
      discover_erase (q.move .discovering)
    dsimp only
    rw [hd]
    rcases (q.move .discovering).discover with ⟨answer, d⟩
    cases answer with
    | error e => rfl
    | ok found =>
      dsimp only
      -- the record shows in the gateway alone, so it commutes with every step of the run
      have ht := topUp_erase ((d.move .toppingUp).say
        [.reconciling target found.length (target - found.length)]) (target - found.length)
      rw [show (d.erase.move .toppingUp).say [.reconciling target found.length
        (target - found.length)] = ((d.move .toppingUp).say
        [.reconciling target found.length (target - found.length)]).erase from rfl, ht]
      exact finish_erase _ _ _ _

/-! ## Which calls are made -/

/-- Attempts register what the supply gives, one after the other. -/
theorem attempts_calls (count : Nat) : ∀ (first : Nat) (supply : σ) (g : Recorded γ),
    (attempts count first supply g).2.2.calls = g.calls ++
      List.zipWith .register (supplied count supply)
        ((attempts count first supply g).1.map Attempt.answer) := by
  induction count with
  | zero => intro _ _ g; simp [attempts, supplied]
  | succ count ih =>
    intro first supply g
    simp only [attempts, supplied, List.map_cons, List.zipWith_cons_cons, ih]
    simp [Gateway.register]

/-- As many attempts are made as asked for, and they are counted on from the first. -/
theorem attempts_numbers (count : Nat) : ∀ (first : Nat) (supply : σ) (g : γ),
    (attempts count first supply g).1.map Attempt.number = List.range' first count := by
  induction count with
  | zero => intro _ _ _; rfl
  | succ count ih =>
    intro first supply g
    simp only [attempts, List.map_cons, List.range'_succ, ih]

theorem attempts_length (count first : Nat) (supply : σ) (g : γ) :
    (attempts count first supply g).1.length = count := by
  simpa using congrArg List.length (attempts_numbers count first supply g)

/-- The calls of a run are those of the run with a record, which goes the same way. -/
theorem ensured_recorded (r : Run σ γ) (target : Nat) :
    ∃ q : Run σ (Recorded γ), r.recorded.Ensured target (r.ensure target).1 q ∧
      (r.ensure target).2 = q.erase ∧ r.calls target = q.site.gateway.calls := by
  have he := ensure_erase r.recorded target
  have hr : r.recorded.erase = r := rfl
  rw [hr] at he
  refine ⟨(r.recorded.ensure target).2, ?_, by rw [he], rfl⟩
  rw [he]
  exact ensure_ensured r.recorded target

omit [Supply σ] in
theorem health_calls {r : Run σ γ} {healthy : Bool} {g : Recorded γ}
    (h : Gateway.isHealthy r.recorded.site.gateway = (healthy, g)) : g.calls = [.health healthy] := by
  cases h
  rfl

omit [Supply σ] in
theorem list_calls {g g' : Recorded γ} {area : Area} {listing : Except GatewayError (List Restaurant)}
    (h : Gateway.list area g = (listing, g')) : g'.calls = g.calls ++ [.list area listing] := by
  cases h
  rfl

end Run

end LunchRush.Seeding
