import LunchRush.Proofs.Seeding.Accounts
import Mathlib.Data.List.Dedup
/-!
# Restaurants that are named twice

A run counts what it finds and what it registers, and does not ask whether two of the answers name
the same restaurant. So a document that is written without a failure has as many entries as asked
for, and names fewer restaurants than that where the answers repeat more of them than there were to
spare (`named_distinct`).
-/

namespace LunchRush.Seeding

/-- The restaurants that some fixtures name, each once. -/
def namedIn (fixtures : List Fixture) : List RestaurantId := (fixtures.map Fixture.restaurantId).dedup

/-- How many of some names come again later. -/
def repeats : List RestaurantId → Nat
  | [] => 0
  | name :: names => (if name ∈ names then 1 else 0) + repeats names

theorem repeats_add_dedup (names : List RestaurantId) :
    repeats names + names.dedup.length = names.length := by
  induction names with
  | nil => rfl
  | cons name names ih =>
    by_cases hm : name ∈ names
    · rw [List.dedup_cons_of_mem hm, repeats, if_pos hm, List.length_cons]
      omega
    · rw [List.dedup_cons_of_notMem hm, repeats, if_neg hm, List.length_cons, List.length_cons]
      omega

theorem repeats_eq_zero_iff (names : List RestaurantId) : repeats names = 0 ↔ names.Nodup := by
  induction names with
  | nil => simp [repeats]
  | cons name names ih =>
    rw [repeats, List.nodup_cons, ← ih]
    by_cases hm : name ∈ names <;> simp [hm]

namespace Run

variable {σ γ : Type} [Gateway γ] [Supply σ]

/-- Where no attempt failed, each one brought a usable restaurant. -/
theorem usable_length_of_unfailed {asked discovered persisted : Nat} {made : List Attempt}
    (hf : (report asked discovered (made.map Attempt.outcome) persisted).failed = 0) :
    (usableOf (answered (made.map Attempt.answer))).length = made.length := by
  have hle := List.length_filter_le Outcome.isRegistered (made.map Attempt.outcome)
  simp only [report, List.length_map, registered_length, filterMap_fixture?] at hf hle
  omega

/-- A run without failures writes as many fixtures as asked for, or as it found where that is more,
and each repetition in its answers leaves it one restaurant short of that. -/
theorem named_distinct (r : Run σ γ) (target : Nat) (report : Report)
    (h : (r.ensure target).1 = .ok report) (hf : report.failed = 0) :
    ∃ listing answers fixtures,
      r.calls target = .health true :: .list r.seeder.config.area listing ::
        List.zipWith .register (supplied answers.length r.seeder.supply) answers ∧
      fixtures = usableOf (listedIn listing) ++ usableOf (answered answers) ∧
      (r.ensure target).2.site.files.read r.seeder.store.path =
        .ok (Document.toYaml ⟨fixtures⟩).toUTF8 ∧
      fixtures.length = max target report.discovered ∧
      (namedIn fixtures).length + repeats (fixtures.map Fixture.restaurantId) =
        max target report.discovered ∧
      (target ≤ (namedIn fixtures).length ↔
        repeats (fixtures.map Fixture.restaurantId) ≤ report.discovered - target) ∧
      ((fixtures.map Fixture.restaurantId).Nodup → target ≤ (namedIn fixtures).length) := by
  obtain ⟨listing, made, hcalls, -, hnumbers, -, rfl, hread⟩ := attempts_of_report h
  have hmade : made.length = target - (usableOf (listedIn listing)).length := by
    simpa using congrArg List.length hnumbers
  have hlength : (usableOf (listedIn listing) ++ usableOf (answered (made.map Attempt.answer))).length =
      max target (usableOf (listedIn listing)).length := by
    rw [List.length_append, usable_length_of_unfailed hf, hmade]
    omega
  have hrepeats := repeats_add_dedup
    ((usableOf (listedIn listing) ++ usableOf (answered (made.map Attempt.answer))).map
      Fixture.restaurantId)
  rw [List.length_map, hlength] at hrepeats
  refine ⟨listing, made.map Attempt.answer, _, by rw [List.length_map]; exact hcalls, rfl, hread,
    hlength, ?_, ?_, ?_⟩
  · rw [Nat.add_comm]
    exact hrepeats
  · simp only [namedIn, Run.report]
    omega
  · intro hnodup
    rw [(repeats_eq_zero_iff _).2 hnodup] at hrepeats
    simp only [namedIn]
    omega

/-- A seeder at a gateway that lists some restaurants and registers others. -/
def asking (listed registered : List RestaurantId) : Run Random.Stream ScriptedGateway :=
  let restaurant (name : RestaurantId) : Restaurant :=
    ⟨name, "", "", 0.0, 0.0, [⟨⟨"i1"⟩, "Soup", "", 60.0⟩]⟩
  ⟨⟨.default, ⟨fun _ => 0, 0⟩, .testing, .unstarted⟩,
    ⟨⟨true, .ok (listed.map restaurant), registered.map fun name => .ok (restaurant name), []⟩,
      .empty, []⟩⟩

theorem named_distinct_apart :
    ∃ report fixtures, ((asking [⟨"r1"⟩] [⟨"r2"⟩]).ensure 2).1 = .ok report ∧ report.failed = 0 ∧
      report.discovered = 1 ∧ fixtures.length = 2 ∧
      ((namedIn fixtures).length + repeats (fixtures.map Fixture.restaurantId) = 2) := by
  have hreport : ((asking [⟨"r1"⟩] [⟨"r2"⟩]).ensure 2).1.toOption =
      some ⟨2, 1, 1, 1, 0, 2, [.registered 1 ⟨"r2"⟩ 1], .persisted⟩ := by
    decide +kernel
  cases h : ((asking [⟨"r1"⟩] [⟨"r2"⟩]).ensure 2).1 with
  | error e => rw [h] at hreport; cases hreport
  | ok report =>
    rw [h] at hreport
    cases hreport
    obtain ⟨listing, answers, fixtures, -, -, -, hlength, hsum, -, -⟩ :=
      named_distinct (asking [⟨"r1"⟩] [⟨"r2"⟩]) 2 _ h rfl
    exact ⟨_, fixtures, rfl, rfl, rfl, hlength, hsum⟩

/-- A listing that names its only restaurant twice is enough for two. -/
theorem repeated_restaurant_counts_twice :
    ∃ report fixtures, ((asking [⟨"r1"⟩, ⟨"r1"⟩] [⟨"r2"⟩]).ensure 2).1 = .ok report ∧
      report.failed = 0 ∧
      ((asking [⟨"r1"⟩, ⟨"r1"⟩] [⟨"r2"⟩]).ensure 2).2.site.files.read Store.default.path =
        .ok (Document.toYaml ⟨fixtures⟩).toUTF8 ∧
      ¬ 2 ≤ (namedIn fixtures).length := by
  let f : Fixture := ⟨⟨"r1"⟩, [⟨⟨"i1"⟩, "Soup", "", 60.0⟩]⟩
  refine ⟨⟨2, 2, 0, 0, 0, 2, [], .persisted⟩, [f, f], rfl, rfl, rfl, ?_⟩
  decide

end Run

end LunchRush.Seeding
