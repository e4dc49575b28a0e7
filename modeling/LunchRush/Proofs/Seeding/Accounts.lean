import LunchRush.Gateway.Scripted
import LunchRush.Proofs.Files.Saving
import LunchRush.Proofs.Fixture
import LunchRush.Proofs.Seeding.Calls
/-!
# What a report accounts for

The figures of a report, its outcomes and the document that was written all follow from the
answers that the gateway gave (`report_accounts`): the usable restaurants that it listed, and the
usable ones among those that it registered.
-/

namespace LunchRush.Seeding

/-! ## Fixtures of answers -/

/-- The fixture that a restaurant would be. -/
def fixtureOf (restaurant : Restaurant) : Fixture := ⟨restaurant.restaurantId, restaurant.menus⟩

/-- The usable fixtures of some restaurants, in order. -/
def usableOf (restaurants : List Restaurant) : List Fixture :=
  (restaurants.map fixtureOf).filter Fixture.isUsable

/-- The restaurants of a listing; none where it failed. -/
def listedIn : Except GatewayError (List Restaurant) → List Restaurant
  | .ok listed => listed
  | .error _ => []

/-- The restaurants that were answered with. -/
def answered (answers : List (Except GatewayError Restaurant)) : List Restaurant :=
  answers.filterMap Except.toOption

theorem ofRestaurant_of_usable {restaurant : Restaurant} (h : (fixtureOf restaurant).isUsable = true) :
    Fixture.ofRestaurant restaurant = .ok (fixtureOf restaurant) :=
  Fixture.new_eq_ok_iff.2 ⟨rfl, h⟩

theorem ofRestaurant_of_not_usable {restaurant : Restaurant}
    (h : (fixtureOf restaurant).isUsable = false) :
    ∃ reason, Fixture.ofRestaurant restaurant = .error reason := by
  cases hf : Fixture.ofRestaurant restaurant with
  | error reason => exact ⟨reason, rfl⟩
  | ok f =>
    obtain ⟨rfl, hu⟩ := Fixture.new_eq_ok_iff.1 hf
    rw [show (⟨restaurant.restaurantId, restaurant.menus⟩ : Fixture) = fixtureOf restaurant from rfl,
      h] at hu
    cases hu

theorem toOption_ofRestaurant (restaurant : Restaurant) :
    (Fixture.ofRestaurant restaurant).toOption =
      if (fixtureOf restaurant).isUsable then some (fixtureOf restaurant) else none := by
  split
  · rename_i h; rw [ofRestaurant_of_usable h]; rfl
  · rename_i h
    obtain ⟨reason, hr⟩ := ofRestaurant_of_not_usable (by simpa using h)
    rw [hr]
    rfl

theorem filterMap_ofRestaurant (restaurants : List Restaurant) :
    restaurants.filterMap (fun restaurant => (Fixture.ofRestaurant restaurant).toOption) =
      usableOf restaurants := by
  induction restaurants with
  | nil => rfl
  | cons restaurant restaurants ih =>
    rw [List.filterMap_cons, toOption_ofRestaurant, ih]
    by_cases hu : (fixtureOf restaurant).isUsable = true
    · simp [usableOf, hu]
    · simp [usableOf, hu]

theorem foundIn_eq (listing : Except GatewayError (List Restaurant)) :
    foundIn listing = usableOf (listedIn listing) := by
  cases listing with
  | ok listed => exact filterMap_ofRestaurant listed
  | error e => rfl

theorem fixture?_eq (a : Attempt) :
    a.fixture? = a.answer.toOption.bind fun restaurant => (Fixture.ofRestaurant restaurant).toOption := by
  unfold Attempt.fixture? Attempt.result
  cases a.answer with
  | error e => rfl
  | ok restaurant =>
    dsimp only
    cases hf : Fixture.ofRestaurant restaurant with
    | error reason => exact congrArg Except.toOption hf.symm
    | ok f => exact congrArg Except.toOption hf.symm

theorem filterMap_fixture? (made : List Attempt) :
    made.filterMap Attempt.fixture? = usableOf (answered (made.map Attempt.answer)) := by
  rw [← filterMap_ofRestaurant, answered, List.filterMap_map, List.filterMap_filterMap]
  exact congrArg (List.filterMap · made) (funext fixture?_eq)

/-! ## What a report says -/

/-- A report about a run for `asked` restaurants that got a listing of `listed` and then some answers
to registrations. -/
structure Accounts (report : Report) (asked : Nat) (listed : List Restaurant)
    (answers : List (Except GatewayError Restaurant)) : Prop where
  target : report.target = asked
  discovered : report.discovered = (usableOf listed).length
  attempted : report.attempted = asked - report.discovered
  calls : answers.length = report.attempted
  outcomes : report.outcomes.length = report.attempted
  /-- An answer with a usable restaurant is a registration, under the number of the attempt. -/
  registered_at : ∀ (i : Nat) (restaurant : Restaurant), answers[i]? = some (.ok restaurant) →
    (fixtureOf restaurant).check = .ok () →
    report.outcomes[i]? = some (.registered (i + 1) restaurant.restaurantId restaurant.menus.length)
  /-- Any other answer is a failure. -/
  failed_at : ∀ (i : Nat) (answer : Except GatewayError Restaurant), answers[i]? = some answer →
    (∀ restaurant, answer = .ok restaurant → (fixtureOf restaurant).check ≠ .ok ()) →
    ∃ error, report.outcomes[i]? = some (.failed (i + 1) error)
  registered : report.registered = (usableOf (answered answers)).length
  total : report.registered + report.failed = report.attempted
  persisted : report.persisted = report.discovered + report.registered
  nonempty : 0 < report.persisted

namespace Run

variable {σ γ : Type} [Gateway γ] [Supply σ]

theorem outcome_registered {a : Attempt} {restaurant : Restaurant} (ha : a.answer = .ok restaurant)
    (hu : (fixtureOf restaurant).isUsable = true) :
    a.outcome = .registered a.number restaurant.restaurantId restaurant.menus.length := by
  unfold Attempt.outcome Attempt.result
  rw [ha]
  dsimp only
  rw [ofRestaurant_of_usable hu]
  rfl

theorem outcome_failed {a : Attempt}
    (h : ∀ restaurant, a.answer = .ok restaurant → (fixtureOf restaurant).isUsable = false) :
    ∃ error, a.outcome = .failed a.number error := by
  unfold Attempt.outcome Attempt.result
  cases ha : a.answer with
  | error e => exact ⟨_, rfl⟩
  | ok restaurant =>
    obtain ⟨reason, hr⟩ := ofRestaurant_of_not_usable (h restaurant ha)
    dsimp only
    rw [hr]
    exact ⟨_, rfl⟩

/-- What is reported after attempts, counted from one, follows from their answers. -/
theorem accounts_of_attempts {asked : Nat} {listed : List Restaurant} {made : List Attempt}
    (hn : made.map Attempt.number = List.range' 1 (asked - (usableOf listed).length))
    (hne : usableOf listed ++ usableOf (answered (made.map Attempt.answer)) ≠ []) :
    Accounts (report asked (usableOf listed).length (made.map Attempt.outcome)
        (usableOf listed ++ usableOf (answered (made.map Attempt.answer))).length)
      asked listed (made.map Attempt.answer) := by
  have hlen : made.length = asked - (usableOf listed).length := by
    simpa using congrArg List.length hn
  have hreg : ((made.map Attempt.outcome).filter Outcome.isRegistered).length =
      (usableOf (answered (made.map Attempt.answer))).length := by
    rw [registered_length, filterMap_fixture?]
  have hle : (usableOf (answered (made.map Attempt.answer))).length ≤ made.length := by
    rw [← hreg]
    simpa using List.length_filter_le Outcome.isRegistered (made.map Attempt.outcome)
  -- attempts are numbered from one, and none is left out
  have hnumber : ∀ i a, made[i]? = some a → a.number = i + 1 := by
    intro i a ha
    have hi : i < made.length := (List.getElem?_eq_some_iff.1 ha).1
    have hget : (made.map Attempt.number)[i]? = some a.number := by simp [ha]
    rw [hn, List.getElem?_range' (by omega)] at hget
    simpa [Nat.add_comm, eq_comm] using hget
  refine ⟨rfl, rfl, by simp [report, hlen], by simp [report], by simp [report], ?_, ?_, hreg, ?_, ?_, ?_⟩
  · intro i restaurant hi hu
    rw [List.getElem?_map, Option.map_eq_some_iff] at hi
    obtain ⟨a, ha, hans⟩ := hi
    simp only [report, List.getElem?_map, ha, Option.map_some,
      outcome_registered hans ((Fixture.isUsable_iff _).2 hu), hnumber i a ha]
  · intro i answer hi hu
    rw [List.getElem?_map, Option.map_eq_some_iff] at hi
    obtain ⟨a, ha, rfl⟩ := hi
    obtain ⟨error, he⟩ := outcome_failed (a := a) fun restaurant hans =>
      Bool.eq_false_iff.2 fun h => hu restaurant hans ((Fixture.isUsable_iff _).1 h)
    exact ⟨error, by simp only [report, List.getElem?_map, ha, Option.map_some, he, hnumber i a ha]⟩
  · simp only [report, List.length_map, hreg]; omega
  · simp only [report, hreg, List.length_append]
  · simp only [report]; exact List.length_pos_iff.2 hne

/-- How a run went that answers with a report: the attempts that it made, what follows from their
answers, and the document that it left. -/
theorem attempts_of_report {r : Run σ γ} {target : Nat} {report : Report}
    (h : (r.ensure target).1 = .ok report) :
    ∃ (listing : Except GatewayError (List Restaurant)) (made : List Attempt),
      r.calls target = .health true :: .list r.seeder.config.area listing ::
        List.zipWith .register (supplied made.length r.seeder.supply) (made.map Attempt.answer) ∧
      (r.seeder.config.policy = .required → listing.isOk) ∧
      made.map Attempt.number = List.range' 1 (target - (usableOf (listedIn listing)).length) ∧
      usableOf (listedIn listing) ++ usableOf (answered (made.map Attempt.answer)) ≠ [] ∧
      report = Run.report target (usableOf (listedIn listing)).length (made.map Attempt.outcome)
        (usableOf (listedIn listing) ++ usableOf (answered (made.map Attempt.answer))).length ∧
      (r.ensure target).2.site.files.read r.seeder.store.path = .ok (Document.toYaml
        ⟨usableOf (listedIn listing) ++ usableOf (answered (made.map Attempt.answer))⟩).toUTF8 := by
  obtain ⟨q, hq, he, hcalls⟩ := ensured_recorded r target
  rw [h] at hq
  generalize hres : Except.ok report = result at hq
  cases hq with
  | @persisted g g' g'' listing supply made events files log hh hl hp ha hn hs =>
    cases hres
    rw [foundIn_eq] at ha
    rw [foundIn_eq, filterMap_fixture?] at hn hs ⊢
    have hmade := attempts_calls (target - (usableOf (listedIn listing)).length) 1 r.seeder.supply g'
    have hnumbers := attempts_numbers (target - (usableOf (listedIn listing)).length) 1
      r.seeder.supply g'
    have hlength := attempts_length (target - (usableOf (listedIn listing)).length) 1
      r.seeder.supply g'
    rw [show attempts _ _ r.seeder.supply g' = _ from ha] at hmade hnumbers hlength
    refine ⟨listing, made, ?_, hp, hnumbers, hn, rfl, ?_⟩
    · rw [hcalls, hlength]
      exact hmade.trans (by rw [list_calls hl, health_calls hh]; rfl)
    · rw [he]
      exact (Store.saves_of_ok hs).read
  | _ => cases hres

/-- A run that answers with a report has made the calls that the report accounts for, and has
written the usable restaurants of the answers. -/
theorem report_accounts (r : Run σ γ) (target : Nat) (report : Report)
    (h : (r.ensure target).1 = .ok report) :
    ∃ listing answers,
      r.calls target = .health true :: .list r.seeder.config.area listing ::
        List.zipWith .register (supplied answers.length r.seeder.supply) answers ∧
      (listing.isOk = false → r.seeder.config.policy = .bestEffort) ∧
      Accounts report target (listedIn listing) answers ∧
      (usableOf (listedIn listing) ++ usableOf (answered answers)).length = report.persisted ∧
      (∀ f ∈ usableOf (listedIn listing) ++ usableOf (answered answers), f.check = .ok ()) ∧
      (r.ensure target).2.site.files.read r.seeder.store.path =
        .ok (Document.toYaml ⟨usableOf (listedIn listing) ++ usableOf (answered answers)⟩).toUTF8 := by
  obtain ⟨listing, made, hcalls, hp, hnumbers, hn, rfl, hread⟩ := attempts_of_report h
  refine ⟨listing, made.map Attempt.answer, ?_, ?_, accounts_of_attempts hnumbers hn, rfl, ?_, hread⟩
  · rw [List.length_map]
    exact hcalls
  · intro hfail
    cases hpolicy : r.seeder.config.policy with
    | bestEffort => rfl
    | required => rw [hp hpolicy] at hfail; cases hfail
  · intro f hf
    rw [usableOf, usableOf, ← List.filter_append] at hf
    exact (Fixture.isUsable_iff f).1 (List.mem_filter.1 hf).2

/-- A run with usable, unusable and missing answers. -/
def mixed : Run Random.Stream ScriptedGateway :=
  ⟨⟨.default, ⟨fun _ => 0, 0⟩, .testing, .unstarted⟩,
    ⟨⟨true, .ok [⟨⟨"r1"⟩, "", "", 0.0, 0.0, [⟨⟨"i1"⟩, "Soup", "", 60.0⟩]⟩, ⟨⟨"r2"⟩, "", "", 0.0, 0.0, []⟩],
        [.error (.status 500 ""), .ok ⟨⟨"r3"⟩, "", "", 0.0, 0.0, [⟨⟨"i2"⟩, "Stew", "", 75.5⟩]⟩,
          .ok ⟨⟨" "⟩, "", "", 0.0, 0.0, [⟨⟨"i3"⟩, "Tea", "", 51.0⟩]⟩], []⟩, .empty, []⟩⟩

theorem report_accounts_mixed :
    ∃ report listing answers, (mixed.ensure 4).1 = .ok report ∧
      Accounts report 4 (listedIn listing) answers ∧ report.discovered = 1 ∧
      report.registered = 1 ∧ report.failed = 2 := by
  have hfigures : (mixed.ensure 4).1.toOption.map
      (fun report => (report.discovered, report.registered, report.failed)) = some (1, 1, 2) := by
    decide +kernel
  cases h : (mixed.ensure 4).1 with
  | error e => rw [h] at hfigures; cases hfigures
  | ok report =>
    rw [h] at hfigures
    simp only [Except.toOption, Option.map_some, Option.some.injEq, Prod.mk.injEq] at hfigures
    obtain ⟨listing, answers, -, -, ha, -⟩ := report_accounts mixed 4 report h
    exact ⟨report, listing, answers, rfl, ha, hfigures⟩

end Run

end LunchRush.Seeding
