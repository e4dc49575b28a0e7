import LunchRush.Gateway.Memory
import LunchRush.Proofs.Seeding.Accounts
/-!
# Seeding a gateway in memory

A gateway in memory keeps what it registers, so a run brings it to its target less the attempts
that failed, and the document names the usable restaurants of the gateway in their order
(`runs_converge`). A run that follows at once and asks for no more finds them all, and writes the
same document again.
-/

namespace LunchRush.Seeding

/-! ## Failed attempts -/

/-- Whether a registration was answered with a restaurant that can be used. -/
def isUsableAnswer : Except GatewayError Restaurant → Bool
  | .ok restaurant => (fixtureOf restaurant).isUsable
  | .error _ => false

/-- Whether a call is an attempt to register a restaurant that brought no usable one. -/
def isFailedAttempt : Call → Bool
  | .register _ answer => !isUsableAnswer answer
  | _ => false

theorem usableOf_append (before later : List Restaurant) :
    usableOf (before ++ later) = usableOf before ++ usableOf later := by
  simp [usableOf]

/-- An answer is usable or it failed. -/
theorem usable_add_failed (answers : List (Except GatewayError Restaurant)) :
    (usableOf (answered answers)).length + answers.countP (!isUsableAnswer ·) = answers.length := by
  induction answers with
  | nil => rfl
  | cons answer answers ih =>
    cases answer with
    | error e =>
      have ha : answered (.error e :: answers) = answered answers := rfl
      rw [ha, List.countP_cons, List.length_cons, ← ih]
      simp [isUsableAnswer, Nat.add_assoc]
    | ok restaurant =>
      have ha : answered (.ok restaurant :: answers) = [restaurant] ++ answered answers := rfl
      rw [ha, usableOf_append, List.length_append, List.countP_cons, List.length_cons, ← ih]
      cases hu : (fixtureOf restaurant).isUsable <;> simp [usableOf, isUsableAnswer, hu] <;> omega

theorem countP_register {registrations : List Registration}
    {answers : List (Except GatewayError Restaurant)} (h : registrations.length = answers.length) :
    (List.zipWith Call.register registrations answers).countP isFailedAttempt =
      answers.countP (!isUsableAnswer ·) := by
  induction answers generalizing registrations with
  | nil => simp
  | cons answer answers ih =>
    cases registrations with
    | nil => cases h
    | cons registration registrations =>
      rw [List.zipWith_cons_cons, List.countP_cons, List.countP_cons, ih (by simpa using h)]
      rfl

/-! ## What a gateway in memory keeps -/

/-- The gateway has got the restaurants of some answers, and is as ready as it was. -/
structure Grows (g g' : MemoryGateway) (answers : List (Except GatewayError Restaurant)) : Prop where
  restaurants : g'.restaurants = g.restaurants ++ answered answers
  healthy : g'.healthy = g.healthy
  listingFails : g'.listingFails = g.listingFails

theorem Grows.refl (g : MemoryGateway) : Grows g g [] := ⟨by simp [answered], rfl, rfl⟩

theorem Grows.cons {g g' g'' : MemoryGateway} {answer : Except GatewayError Restaurant}
    {answers : List (Except GatewayError Restaurant)} (h : Grows g g' [answer])
    (h' : Grows g' g'' answers) : Grows g g'' (answer :: answers) := by
  refine ⟨?_, h'.healthy.trans h.healthy, h'.listingFails.trans h.listingFails⟩
  rw [h'.restaurants, h.restaurants, List.append_assoc]
  cases answer <;> rfl

/-- A registration that does not fail answers with the restaurant that it adds. -/
theorem register_grows (registration : Registration) (g : MemoryGateway) :
    Grows g (Gateway.register registration g).2 [(Gateway.register registration g).1] := by
  simp only [Gateway.register, MemoryGateway.register]
  by_cases hf : g.failingAttempts.contains g.registrationAttempts = true
  · simp only [hf, if_true]
    exact ⟨by simp [answered, Except.toOption], rfl, rfl⟩
  · simp only [hf, Bool.false_eq_true, if_false]
    exact ⟨rfl, rfl, rfl⟩

theorem attempts_grows {σ : Type} [Supply σ] (count : Nat) :
    ∀ (first : Nat) (supply : σ) (g : MemoryGateway),
      Grows g (Run.attempts count first supply g).2.2
        ((Run.attempts count first supply g).1.map Attempt.answer) := by
  induction count with
  | zero => intro _ _ g; exact .refl g
  | succ count ih =>
    intro first supply g
    exact (register_grows _ g).cons (ih (first + 1) _ _)

namespace Run

variable {σ : Type} [Supply σ]

/-- How a run ends that has some fixtures to write after some attempts that failed. -/
inductive Concludes (s : Store) (fixtures : List Fixture) (failed : Nat) (files : FileTree) :
    Except Error Report → FileTree → Prop
  | empty {attempted : Nat} : fixtures = [] →
      Concludes s fixtures failed files (.error (.nothingUsable attempted failed)) files
  | unsaved {e : StoreError} {files' : FileTree} : fixtures ≠ [] →
      s.save ⟨fixtures⟩ files = (.error e, files') →
      Concludes s fixtures failed files (.error (.store e)) files'
  | persisted {report : Report} {events : List Event} {files' : FileTree} : fixtures ≠ [] →
      s.save ⟨fixtures⟩ files = (.ok events, files') → report.failed = failed →
      report.persisted = fixtures.length → Concludes s fixtures failed files (.ok report) files'

/-- A run at a gateway in memory that is ready: what it is answered, and what it leaves. -/
structure Meets (r : Run σ MemoryGateway) (target : Nat)
    (answers : List (Except GatewayError Restaurant)) : Prop where
  calls : r.calls target = .health true :: .list r.seeder.config.area (.ok r.site.gateway.restaurants) ::
    List.zipWith .register (supplied answers.length r.seeder.supply) answers
  count : answers.length = target - (usableOf r.site.gateway.restaurants).length
  grows : Grows r.site.gateway (r.ensure target).2.site.gateway answers
  concludes : Concludes r.seeder.store (usableOf (r.ensure target).2.site.gateway.restaurants)
    (answers.countP (!isUsableAnswer ·)) r.site.files (r.ensure target).1 (r.ensure target).2.site.files

/-- The attempts of a run register what the listing leaves to be done, and the usable restaurants that
are found and then brought are the usable ones of the gateway in its order. -/
theorem attempts_meet {r : Run σ MemoryGateway} {target : Nat} {g g' g'' : Recorded MemoryGateway}
    {listing : Except GatewayError (List Restaurant)} {supply : σ} {made : List Attempt}
    (hf : r.site.gateway.listingFails = false)
    (hh : Gateway.isHealthy r.recorded.site.gateway = (true, g))
    (hl : Gateway.list r.seeder.config.area g = (listing, g'))
    (ha : attempts (target - (foundIn listing).length) 1 r.seeder.supply g' = (made, supply, g'')) :
    g''.calls = .health true :: .list r.seeder.config.area (.ok r.site.gateway.restaurants) ::
        List.zipWith .register (supplied made.length r.seeder.supply) (made.map Attempt.answer) ∧
      made.length = target - (usableOf r.site.gateway.restaurants).length ∧
      Grows r.site.gateway g''.inner (made.map Attempt.answer) ∧
      foundIn listing ++ made.filterMap Attempt.fixture? = usableOf g''.inner.restaurants := by
  have hg : g.inner = r.site.gateway := (congrArg (fun p => p.2.inner) hh).symm
  have hlisted : listing = .ok r.site.gateway.restaurants ∧ Grows r.site.gateway g'.inner [] := by
    have hlist := hl
    simp only [Gateway.list, MemoryGateway.list, hg, hf, Bool.false_eq_true, if_false,
      Prod.mk.injEq] at hlist
    obtain ⟨rfl, rfl⟩ := hlist
    exact ⟨rfl, by simp [answered], rfl, hf.symm⟩
  obtain ⟨rfl, hstart⟩ := hlisted
  have hgrows : Grows r.site.gateway g''.inner (made.map Attempt.answer) := by
    have hmade := attempts_grows (target - (foundIn (.ok r.site.gateway.restaurants)).length) 1
      r.seeder.supply g'.inner
    rw [attempts_erase, ha] at hmade
    refine ⟨?_, hmade.healthy.trans hstart.healthy, hmade.listingFails.trans hstart.listingFails⟩
    rw [hmade.restaurants, hstart.restaurants]
    simp [answered]
  have hcount := attempts_length (target - (foundIn (.ok r.site.gateway.restaurants)).length) 1
    r.seeder.supply g'
  have hcalls := attempts_calls (target - (foundIn (.ok r.site.gateway.restaurants)).length) 1
    r.seeder.supply g'
  rw [ha] at hcount hcalls
  rw [← hcount, list_calls hl, health_calls hh] at hcalls
  refine ⟨hcalls, ?_, hgrows, ?_⟩
  · rw [hcount, foundIn_eq]
    rfl
  · rw [foundIn_eq, filterMap_fixture?, hgrows.restaurants, usableOf_append]
    rfl

theorem failed_length (made : List Attempt) :
    made.length - ((made.map Attempt.outcome).filter Outcome.isRegistered).length =
      (made.map Attempt.answer).countP (!isUsableAnswer ·) := by
  have htotal := usable_add_failed (made.map Attempt.answer)
  rw [List.length_map] at htotal
  rw [registered_length, filterMap_fixture?]
  omega

/-- A run that gets as far as its attempts meets the gateway, if it ends as it should. -/
theorem meets_of_attempts {r : Run σ MemoryGateway} {q : Run σ (Recorded MemoryGateway)}
    {target : Nat} {g g' : Recorded MemoryGateway} {listing : Except GatewayError (List Restaurant)}
    {supply : σ} {made : List Attempt} (hf : r.site.gateway.listingFails = false)
    (he : (r.ensure target).2 = q.erase) (hcalls : r.calls target = q.site.gateway.calls)
    (hh : Gateway.isHealthy r.recorded.site.gateway = (true, g))
    (hl : Gateway.list r.seeder.config.area g = (listing, g'))
    (ha : attempts (target - (foundIn listing).length) 1 r.seeder.supply g' =
      (made, supply, q.site.gateway))
    (hc : foundIn listing ++ made.filterMap Attempt.fixture? =
        usableOf q.site.gateway.inner.restaurants →
      Concludes r.seeder.store (usableOf q.site.gateway.inner.restaurants)
        ((made.map Attempt.answer).countP (!isUsableAnswer ·)) r.site.files (r.ensure target).1
        q.site.files) : r.Meets target (made.map Attempt.answer) := by
  obtain ⟨hmade, hcount, hgrows, hfound⟩ := attempts_meet hf hh hl ha
  have hlength : (made.map Attempt.answer).length = made.length := List.length_map _
  constructor
  case calls => rw [hcalls, hlength, hmade]
  case count => rw [hlength, hcount]
  case grows =>
    rw [he]
    exact hgrows
  case concludes =>
    rw [he]
    exact hc hfound

theorem ensure_meets (r : Run σ MemoryGateway) (hh : r.site.gateway.healthy = true)
    (hl : r.site.gateway.listingFails = false) (target : Nat) : ∃ answers, r.Meets target answers := by
  obtain ⟨q, hq, he, hcalls⟩ := ensured_recorded r target
  generalize hres : (r.ensure target).1 = result at hq
  cases hq with
  | unreachable hsick =>
    have hboth : true = false := hh.symm.trans (congrArg Prod.fst hsick)
    cases hboth
  | @undiscovered g g' e log hh' hfails _ =>
    have hg : g.inner = r.site.gateway := (congrArg (fun p => p.2.inner) hh').symm
    simp [Gateway.list, MemoryGateway.list, hg, hl] at hfails
  | empty hh' hl' hp ha hn =>
    refine ⟨_, meets_of_attempts hl he hcalls hh' hl' ha ?_⟩
    intro hfound
    rw [hres, failed_length]
    exact .empty (hfound.symm.trans hn)
  | unsaved hh' hl' hp ha hn hs =>
    refine ⟨_, meets_of_attempts hl he hcalls hh' hl' ha ?_⟩
    intro hfound
    rw [hfound] at hn hs
    rw [hres]
    exact .unsaved hn hs
  | persisted hh' hl' hp ha hn hs =>
    refine ⟨_, meets_of_attempts hl he hcalls hh' hl' ha ?_⟩
    intro hfound
    rw [hfound] at hn hs hres
    rw [hres]
    refine .persisted hn hs ?_ rfl
    simp only [report, List.length_map]
    exact failed_length _

/-- A run's calls show which of its attempts failed. -/
theorem Meets.failed_calls {r : Run σ MemoryGateway} {target : Nat}
    {answers : List (Except GatewayError Restaurant)} (h : r.Meets target answers) :
    (r.calls target).countP isFailedAttempt = answers.countP (!isUsableAnswer ·) := by
  rw [h.calls, List.countP_cons, List.countP_cons, countP_register (supplied_length _ _)]
  rfl

/-- A run that is answered with a report has written the usable restaurants. -/
theorem Meets.of_ok {r : Run σ MemoryGateway} {target : Nat}
    {answers : List (Except GatewayError Restaurant)} (h : r.Meets target answers) {report : Report}
    (hr : (r.ensure target).1 = .ok report) :
    (∃ events, r.seeder.store.save ⟨usableOf (r.ensure target).2.site.gateway.restaurants⟩
      r.site.files = (.ok events, (r.ensure target).2.site.files)) ∧
    usableOf (r.ensure target).2.site.gateway.restaurants ≠ [] ∧
    report.failed = answers.countP (!isUsableAnswer ·) ∧
    report.persisted = (usableOf (r.ensure target).2.site.gateway.restaurants).length := by
  have hc := h.concludes
  rw [hr] at hc
  generalize (r.ensure target).2.site.files = files at hc ⊢
  cases hc with
  | persisted hne hs hf hp => exact ⟨⟨_, hs⟩, hne, hf, hp⟩

/-! ## Runs one after the other -/

/-- What a run for `target` restaurants does to the gateway and to the document. -/
structure Converges (r : Run σ MemoryGateway) (target : Nat) : Prop where
  /-- There are as many usable restaurants as asked for or as there were, less the attempts that
  failed; so there are never more. -/
  usable : (usableOf (r.ensure target).2.site.gateway.restaurants).length +
      (r.calls target).countP isFailedAttempt =
    max (usableOf r.site.gateway.restaurants).length target
  reported : ∀ report, (r.ensure target).1 = .ok report →
    report.failed = (r.calls target).countP isFailedAttempt
  refused : ∀ attempted failed, (r.ensure target).1 = .error (.nothingUsable attempted failed) →
    failed = (r.calls target).countP isFailedAttempt
  /-- Where there are enough, nothing is registered. -/
  enough : target ≤ (usableOf r.site.gateway.restaurants).length →
    (∀ registration answer, Call.register registration answer ∉ r.calls target) ∧
      (r.ensure target).2.site.gateway.restaurants = r.site.gateway.restaurants
  /-- The document has the usable restaurants in the order of the gateway. -/
  written : ∀ report, (r.ensure target).1 = .ok report →
    report.persisted = (usableOf (r.ensure target).2.site.gateway.restaurants).length ∧
      (r.ensure target).2.site.files.read r.seeder.store.path =
        .ok (Document.toYaml ⟨usableOf (r.ensure target).2.site.gateway.restaurants⟩).toUTF8
  /-- Whoever runs next, with the same store and for no more restaurants, writes the same again. -/
  again : ∀ report, (r.ensure target).1 = .ok report → ∀ (next : Seeder σ) (fewer : Nat),
    next.store = r.seeder.store → fewer ≤ report.persisted →
    ∃ report', (ensure ⟨next, (r.ensure target).2.site⟩ fewer).1 = .ok report' ∧
      report'.persisted = report.persisted ∧
      (ensure ⟨next, (r.ensure target).2.site⟩ fewer).2.site.files.read r.seeder.store.path =
        (r.ensure target).2.site.files.read r.seeder.store.path

/-- Where there are enough, a run leaves the restaurants as they are. -/
theorem Meets.enough {r : Run σ MemoryGateway} {target : Nat}
    {answers : List (Except GatewayError Restaurant)} (h : r.Meets target answers)
    (he : target ≤ (usableOf r.site.gateway.restaurants).length) :
    (∀ registration answer, Call.register registration answer ∉ r.calls target) ∧
      (r.ensure target).2.site.gateway.restaurants = r.site.gateway.restaurants := by
  have hcount := h.count
  rw [Nat.sub_eq_zero_of_le he] at hcount
  have hnone : answers = [] := List.eq_nil_of_length_eq_zero hcount
  subst hnone
  constructor
  · intro registration answer
    rw [h.calls]
    simp
  · rw [h.grows.restaurants]
    simp [answered]

theorem Meets.usable {r : Run σ MemoryGateway} {target : Nat}
    {answers : List (Except GatewayError Restaurant)} (h : r.Meets target answers) :
    (usableOf (r.ensure target).2.site.gateway.restaurants).length +
        (r.calls target).countP isFailedAttempt =
      max (usableOf r.site.gateway.restaurants).length target := by
  have htotal := usable_add_failed answers
  have hcount := h.count
  rw [h.failed_calls, h.grows.restaurants, usableOf_append, List.length_append]
  omega

/-- A run for no more than was written last finds it all, and writes it again. -/
theorem ensure_again {r : Run σ MemoryGateway} (hh : r.site.gateway.healthy = true)
    (hl : r.site.gateway.listingFails = false) {target : Nat} {report : Report}
    (hr : (r.ensure target).1 = .ok report) {next : Seeder σ} {fewer : Nat}
    (hs : next.store = r.seeder.store) (hf : fewer ≤ report.persisted) :
    ∃ report', (ensure ⟨next, (r.ensure target).2.site⟩ fewer).1 = .ok report' ∧
      report'.persisted = report.persisted ∧
      (ensure ⟨next, (r.ensure target).2.site⟩ fewer).2.site.files.read r.seeder.store.path =
        (r.ensure target).2.site.files.read r.seeder.store.path := by
  obtain ⟨answers, h⟩ := ensure_meets r hh hl target
  obtain ⟨⟨events, hsave⟩, hne, -, hp⟩ := h.of_ok hr
  obtain ⟨answers', h'⟩ := ensure_meets (⟨next, (r.ensure target).2.site⟩ : Run σ MemoryGateway)
    (h.grows.healthy.trans hh) (h.grows.listingFails.trans hl) fewer
  obtain ⟨-, hsame⟩ := h'.enough (hp ▸ hf)
  have hc := h'.concludes
  rw [hsame, hs] at hc
  obtain ⟨files, hagain⟩ := Store.save_again hsave
    ⟨usableOf (r.ensure target).2.site.gateway.restaurants⟩
  generalize (ensure ⟨next, (r.ensure target).2.site⟩ fewer).1 = result,
    (ensure ⟨next, (r.ensure target).2.site⟩ fewer).2.site.files = files' at hc ⊢
  cases hc with
  | empty hnone => exact absurd hnone hne
  | unsaved _ hfail =>
    rw [hagain] at hfail
    cases hfail
  | persisted _ hok _ hp' =>
    refine ⟨_, rfl, hp'.trans hp.symm, ?_⟩
    rw [(Store.saves_of_ok hok).read, (Store.saves_of_ok hsave).read]

theorem ensure_converges (r : Run σ MemoryGateway) (hh : r.site.gateway.healthy = true)
    (hl : r.site.gateway.listingFails = false) (target : Nat) : r.Converges target := by
  obtain ⟨answers, h⟩ := ensure_meets r hh hl target
  constructor
  case usable => exact h.usable
  case reported =>
    intro report hr
    obtain ⟨-, -, hf, -⟩ := h.of_ok hr
    rw [hf, h.failed_calls]
  case refused =>
    intro attempted failed hr
    have hc := h.concludes
    rw [hr] at hc
    generalize (r.ensure target).2.site.files = files at hc
    cases hc
    rw [h.failed_calls]
  case enough => exact h.enough
  case written =>
    intro report hr
    obtain ⟨⟨events, hs⟩, -, -, hp⟩ := h.of_ok hr
    exact ⟨hp, (Store.saves_of_ok hs).read⟩
  case again =>
    intro report hr next fewer hs hf
    exact ensure_again hh hl hr hs hf

end Run

/-- The site after some runs there, each by some seeder and for some target. A seeder that runs more
than once comes back as its last run has left it. -/
def Site.after {σ γ : Type} [Gateway γ] [Supply σ] (site : Site γ) : List (Seeder σ × Nat) → Site γ
  | [] => site
  | (seeder, target) :: later => Site.after (Run.ensure ⟨seeder, site⟩ target).2.site later

section Sites

variable {σ : Type} [Supply σ]

/-- Runs leave a gateway in memory as ready as it was, and take no restaurant away. -/
theorem Site.after_ready (runs : List (Seeder σ × Nat)) : ∀ site : Site MemoryGateway,
    site.gateway.healthy = true → site.gateway.listingFails = false →
      (site.after runs).gateway.healthy = true ∧ (site.after runs).gateway.listingFails = false ∧
        site.gateway.restaurants <+: (site.after runs).gateway.restaurants := by
  induction runs with
  | nil =>
    intro site hh hl
    exact ⟨hh, hl, List.prefix_refl _⟩
  | cons run runs ih =>
    intro site hh hl
    obtain ⟨answers, h⟩ := Run.ensure_meets ⟨run.1, site⟩ hh hl run.2
    obtain ⟨hh', hl', hp⟩ := ih _ (h.grows.healthy.trans hh) (h.grows.listingFails.trans hl)
    refine ⟨hh', hl', List.IsPrefix.trans ?_ hp⟩
    rw [h.grows.restaurants]
    exact List.prefix_append _ _

/-- At a site whose gateway is ready, every run converges, whatever runs there have been. -/
theorem runs_converge (site : Site MemoryGateway) (hh : site.gateway.healthy = true)
    (hl : site.gateway.listingFails = false) (earlier : List (Seeder σ × Nat)) (seeder : Seeder σ)
    (target : Nat) : Run.Converges ⟨seeder, site.after earlier⟩ target := by
  obtain ⟨hh', hl', -⟩ := Site.after_ready earlier site hh hl
  exact Run.ensure_converges _ hh' hl' target

/-- A gateway with a restaurant that can be used and one that cannot, whose first registration fails. -/
def wanting : Site MemoryGateway :=
  ⟨{ restaurants := [⟨⟨"r1"⟩, "", "", 0.0, 0.0, [⟨⟨"i1"⟩, "Soup", "", 60.0⟩]⟩, ⟨⟨"r2"⟩, "", "", 0.0, 0.0, []⟩]
     failingAttempts := [0] }, .empty, []⟩

/-- A seeder whose registrations are all alike. -/
def steady : Seeder Random.Stream := ⟨.default, ⟨fun _ => 0, 0⟩, .testing, .unstarted⟩

theorem runs_converge_wanting :
    wanting.gateway.healthy = true ∧ wanting.gateway.listingFails = false ∧
      Run.Converges ⟨steady, wanting.after [(steady, 2)]⟩ 2 ∧
      (usableOf wanting.gateway.restaurants).length = 1 ∧
      (usableOf (wanting.after [(steady, 2)]).gateway.restaurants).length = 1 ∧
      (usableOf (wanting.after [(steady, 2), (steady, 2)]).gateway.restaurants).length = 2 := by
  refine ⟨rfl, rfl, runs_converge wanting rfl rfl [(steady, 2)] steady 2, ?_, ?_, ?_⟩
  · decide +kernel
  · decide +kernel
  · decide +kernel

end Sites

end LunchRush.Seeding
