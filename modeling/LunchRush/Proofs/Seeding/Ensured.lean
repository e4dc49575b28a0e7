import LunchRush.Proofs.Gateway.Recorded
import LunchRush.Seeding.Run
/-!
# The ways in which seeding can go

`Ensured` lists the five ways in which a run can end, with the answers of the gateway that led
there and all that the run leaves behind but its log; `ensure_ensured` says that there is no other
way. `Run.calls` are the calls that a run makes.
-/

namespace LunchRush.Seeding

/-- The usable restaurants of a listing; none where the listing failed. -/
def foundIn : Except GatewayError (List Restaurant) → List Fixture
  | .ok listed => listed.filterMap fun restaurant => (Fixture.ofRestaurant restaurant).toOption
  | .error _ => []

namespace Run

variable {σ γ : Type} [Gateway γ] [Supply σ]

/-- What a run has left: how far it came, its supply, the gateway, the files and the log. -/
def left (r : Run σ γ) (state : State) (supply : σ) (gateway : γ) (files : FileTree)
    (log : List Event) : Run σ γ :=
  ⟨{ r.seeder with state, supply }, ⟨gateway, files, log⟩⟩

/-- How a run for `target` restaurants can go: its answer and what it leaves. -/
inductive Ensured (r : Run σ γ) (target : Nat) : Except Error Report → Run σ γ → Prop
  | unreachable {g : γ} {log : List Event} :
      Gateway.isHealthy r.site.gateway = (false, g) →
      Ensured r target (.error .unavailable)
        (r.left (.aborted .unreachable) r.seeder.supply g r.site.files log)
  | undiscovered {g g' : γ} {e : GatewayError} {log : List Event} :
      Gateway.isHealthy r.site.gateway = (true, g) →
      Gateway.list r.seeder.config.area g = (.error e, g') →
      r.seeder.config.policy = .required →
      Ensured r target (.error (.discoveryFailed e))
        (r.left (.aborted .discoveryFailed) r.seeder.supply g' r.site.files log)
  | empty {g g' g'' : γ} {listing : Except GatewayError (List Restaurant)} {supply : σ}
      {made : List Attempt} {log : List Event} :
      Gateway.isHealthy r.site.gateway = (true, g) →
      Gateway.list r.seeder.config.area g = (listing, g') →
      (r.seeder.config.policy = .required → listing.isOk) →
      attempts (target - (foundIn listing).length) 1 r.seeder.supply g' = (made, supply, g'') →
      foundIn listing ++ made.filterMap Attempt.fixture? = [] →
      Ensured r target
        (.error (.nothingUsable made.length
          (made.length - ((made.map Attempt.outcome).filter Outcome.isRegistered).length)))
        (r.left (.aborted .empty) supply g'' r.site.files log)
  | unsaved {g g' g'' : γ} {listing : Except GatewayError (List Restaurant)} {supply : σ}
      {made : List Attempt} {e : StoreError} {files : FileTree} {log : List Event} :
      Gateway.isHealthy r.site.gateway = (true, g) →
      Gateway.list r.seeder.config.area g = (listing, g') →
      (r.seeder.config.policy = .required → listing.isOk) →
      attempts (target - (foundIn listing).length) 1 r.seeder.supply g' = (made, supply, g'') →
      foundIn listing ++ made.filterMap Attempt.fixture? ≠ [] →
      r.seeder.store.save ⟨foundIn listing ++ made.filterMap Attempt.fixture?⟩ r.site.files =
        (.error e, files) →
      Ensured r target (.error (.store e)) (r.left (.aborted .storeFailed) supply g'' files log)
  | persisted {g g' g'' : γ} {listing : Except GatewayError (List Restaurant)} {supply : σ}
      {made : List Attempt} {events : List Event} {files : FileTree} {log : List Event} :
      Gateway.isHealthy r.site.gateway = (true, g) →
      Gateway.list r.seeder.config.area g = (listing, g') →
      (r.seeder.config.policy = .required → listing.isOk) →
      attempts (target - (foundIn listing).length) 1 r.seeder.supply g' = (made, supply, g'') →
      foundIn listing ++ made.filterMap Attempt.fixture? ≠ [] →
      r.seeder.store.save ⟨foundIn listing ++ made.filterMap Attempt.fixture?⟩ r.site.files =
        (.ok events, files) →
      Ensured r target
        (.ok (report target (foundIn listing).length (made.map Attempt.outcome)
          (foundIn listing ++ made.filterMap Attempt.fixture?).length))
        (r.left .persisted supply g'' files log)

omit [Supply σ] in
/-- The listing either ends the run or gives what is found in it. -/
theorem discover_cases (r : Run σ γ) :
    ∃ listing g log, Gateway.list r.seeder.config.area r.site.gateway = (listing, g) ∧
      ((∃ e, listing = .error e ∧ r.seeder.config.policy = .required ∧
          r.discover = (.error e, ⟨r.seeder, ⟨g, r.site.files, log⟩⟩)) ∨
        ((r.seeder.config.policy = .required → listing.isOk) ∧
          r.discover = (.ok (foundIn listing), ⟨r.seeder, ⟨g, r.site.files, log⟩⟩))) := by
  unfold discover
  rcases hl : Gateway.list r.seeder.config.area r.site.gateway with ⟨listing, g⟩
  cases listing with
  | ok listed => exact ⟨_, g, _, rfl, .inr ⟨fun _ => rfl, rfl⟩⟩
  | error e =>
    cases hp : r.seeder.config.policy with
    | bestEffort =>
      refine ⟨_, g, r.site.log ++ [.listingFailed e.message], rfl, .inr ⟨nofun, ?_⟩⟩
      simp only [withGateway, hp, say, foundIn]
    | required =>
      refine ⟨_, g, r.site.log, rfl, .inl ⟨e, rfl, rfl, ?_⟩⟩
      simp only [withGateway, hp]

theorem topUp_eq (r : Run σ γ) (needed : Nat) {made : List Attempt} {supply : σ} {g : γ}
    (h : attempts needed 1 r.seeder.supply r.site.gateway = (made, supply, g)) :
    ∃ log, r.topUp needed = (made, r.left r.seeder.state supply g r.site.files log) := by
  unfold topUp
  rw [h]
  exact ⟨_, rfl⟩

omit [Gateway γ] [Supply σ] in
/-- The document is written unless there is nothing to write. -/
theorem finish_cases (r : Run σ γ) (target : Nat) (found : List Fixture) (made : List Attempt) :
    ∃ log, (found ++ made.filterMap Attempt.fixture? = [] ∧ r.finish target found made =
        (.error (.nothingUsable made.length
          (made.length - ((made.map Attempt.outcome).filter Outcome.isRegistered).length)),
        r.left (.aborted .empty) r.seeder.supply r.site.gateway r.site.files log)) ∨
      (found ++ made.filterMap Attempt.fixture? ≠ [] ∧
        ((∃ e files, r.seeder.store.save ⟨found ++ made.filterMap Attempt.fixture?⟩ r.site.files =
            (.error e, files) ∧ r.finish target found made = (.error (.store e),
              r.left (.aborted .storeFailed) r.seeder.supply r.site.gateway files log)) ∨
        (∃ events files, r.seeder.store.save ⟨found ++ made.filterMap Attempt.fixture?⟩ r.site.files =
            (.ok events, files) ∧ r.finish target found made =
              (.ok (report target found.length (made.map Attempt.outcome)
                (found ++ made.filterMap Attempt.fixture?).length),
              r.left .persisted r.seeder.supply r.site.gateway files log)))) := by
  unfold finish
  by_cases hn : found ++ made.filterMap Attempt.fixture? = []
  · refine ⟨r.site.log ++ [.stateChanged r.seeder.state (.aborted .empty)], .inl ⟨hn, ?_⟩⟩
    simp only [hn, List.isEmpty_nil, if_true, report, List.length_map]
    rfl
  · have hempty : (found ++ made.filterMap Attempt.fixture?).isEmpty = false := by
      simpa using hn
    simp only [hempty, Bool.false_eq_true, if_false]
    rcases hs : r.seeder.store.save ⟨found ++ made.filterMap Attempt.fixture?⟩ r.site.files with
      ⟨result, files⟩
    cases result with
    | error e =>
      refine ⟨r.site.log ++ [.stateChanged r.seeder.state (.aborted .storeFailed)],
        .inr ⟨hn, .inl ⟨e, files, rfl, ?_⟩⟩⟩
      simp only [save, hs]
      rfl
    | ok events =>
      refine ⟨r.site.log ++ events ++ [.stateChanged r.seeder.state .persisted] ++
          [.documentWritten r.seeder.store.path (found ++ made.filterMap Attempt.fixture?).length
            ((made.map Attempt.outcome).filter Outcome.isRegistered).length
            (made.length - ((made.map Attempt.outcome).filter Outcome.isRegistered).length)],
        .inr ⟨hn, .inr ⟨events, files, rfl, ?_⟩⟩⟩
      simp only [save, hs, report, List.length_map]
      rfl

/-- Every run goes in one of these ways. -/
theorem ensure_ensured (r : Run σ γ) (target : Nat) :
    Ensured r target (r.ensure target).1 (r.ensure target).2 := by
  rcases hh : Gateway.isHealthy r.site.gateway with ⟨healthy, g⟩
  have hc : (r.move .checkingAvailability).checkHealth =
      (healthy, (r.move .checkingAvailability).withGateway g) := by
    have hm : Gateway.isHealthy (r.move .checkingAvailability).site.gateway = (healthy, g) := hh
    rw [checkHealth, hm]
  unfold ensure
  rw [hc]
  cases healthy with
  | false => exact .unreachable hh
  | true =>
    dsimp only
    generalize hd : ((r.move .checkingAvailability).withGateway g).move .discovering = d
    -- a listing that failed ends the run only where the policy says so
    obtain ⟨listing, g', log', hl, ⟨e, rfl, hp, hf⟩ | ⟨hp, hf⟩⟩ := discover_cases d
    · rw [hf]
      subst hd
      exact .undiscovered hh hl hp
    · rw [hf]
      dsimp only
      rcases ha : attempts (target - (foundIn listing).length) 1 d.seeder.supply g' with
        ⟨made, supply, g''⟩
      obtain ⟨log'', ht⟩ := topUp_eq ((Run.move ⟨d.seeder, ⟨g', d.site.files, log'⟩⟩ .toppingUp).say
        [.reconciling target (foundIn listing).length (target - (foundIn listing).length)]) _ ha
      rw [ht]
      let q := d.left .toppingUp supply g'' d.site.files log''
      change Ensured r target (q.finish target (foundIn listing) made).1
        (q.finish target (foundIn listing) made).2
      obtain ⟨log, ⟨hn, hf⟩ | ⟨hn, ⟨e, files, hs, hf⟩ | ⟨events, files, hs, hf⟩⟩⟩ :=
        finish_cases q target (foundIn listing) made
      · rw [hf]
        subst hd
        exact .empty hh hl hp ha hn
      · rw [hf]
        subst hd
        exact .unsaved hh hl hp ha hn hs
      · rw [hf]
        subst hd
        exact .persisted hh hl hp ha hn hs

end Run

end LunchRush.Seeding
