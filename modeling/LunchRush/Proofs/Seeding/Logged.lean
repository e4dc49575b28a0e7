import LunchRush.Proofs.Seeding.Accounts
import Mathlib.Data.List.Forall2
/-!
# What a run logs

Whatever the gateway answers, the errors in the log of a run are those of its failed attempts, one for each
and in their order; progress is reported after every so many attempts, behind the error of the attempt that it
counts; and there is a warning exactly where the listing failed and the run went on without it
(`log_mirrors_outcomes`).
-/

namespace LunchRush

namespace Event

/-- Whether an event reports progress. -/
def isProgress : Event → Bool
  | .progress _ _ => true
  | _ => false

theorem level_of_isProgress {event : Event} (h : event.isProgress = true) : event.level = .info := by
  cases event with
  | progress => rfl
  | _ => cases h

theorem isProgress_of_error {event : Event} (h : event.level = .error) : event.isProgress = false := by
  cases event with
  | progress => cases h
  | _ => rfl

/-- Whether an event is an error, a warning or progress. -/
def isNotable (event : Event) : Bool := event.level == .error || event.level == .warn || event.isProgress

theorem isNotable_of_filter {event : Event} (h : (event.level == .error || event.isProgress) = true) :
    event.isNotable = true := by
  unfold isNotable
  rcases Bool.or_eq_true_iff.1 h with h | h
  · rw [h]
    rfl
  · rw [h, Bool.or_true]

/-- The level, the message and the fields of an event. -/
def line (event : Event) : Level × String × List (String × String) :=
  (event.level, event.message, event.fields)

end Event

namespace Seeding

/-! ## What attempts and listings log -/

/-- The attempts that the registrations among some calls are, counted from `first`. -/
def attemptsOf : (first : Nat) → List Call → List Attempt
  | _, [] => []
  | first, .register registration answer :: calls =>
    ⟨first, registration.name, answer⟩ :: attemptsOf (first + 1) calls
  | first, _ :: calls => attemptsOf first calls

/-- Why a listing among some calls failed. -/
def listingErrors (calls : List Call) : List GatewayError :=
  calls.filterMap fun
    | .list _ (.error e) => some e
    | _ => none

/-- The error that is logged for an attempt, and what is reported of it. -/
inductive Attempt.Mirrors (a : Attempt) (event : Event) : Prop
  | refused (e : GatewayError) : a.answer = .error e →
      a.outcome = .failed a.number e.message →
      event.line = (.error, "failed to register restaurant",
        [("attempt", toString a.number), ("name", a.name), ("error", e.message)]) → Mirrors a event
  | unusable (restaurant : Restaurant) (reason : Violation) : a.answer = .ok restaurant →
      (fixtureOf restaurant).check = .error reason →
      a.outcome = .failed a.number ("unusable response: " ++ reason.message) →
      event.line = (.error, "registration returned an unusable restaurant",
        [("attempt", toString a.number), ("error", reason.message)]) → Mirrors a event

theorem Attempt.Mirrors.level {a : Attempt} {event : Event} (h : a.Mirrors event) : event.level = .error := by
  cases h with
  | refused _ _ _ hline => exact congrArg Prod.fst hline
  | unusable _ _ _ _ _ hline => exact congrArg Prod.fst hline

/-- What is logged of an attempt among `needed`: its failure, and then progress if it is due. -/
structure Attempt.Logs (a : Attempt) (every needed : Nat) (events : List Event) : Prop where
  failed : a.outcome.isRegistered = false → ∃ error, a.Mirrors error ∧
    events = error :: if a.number % max every 1 = 0 then [.progress a.number needed] else []
  registered : a.outcome.isRegistered = true →
    events = if a.number % max every 1 = 0 then [.progress a.number needed] else []

theorem check_of_ofRestaurant {restaurant : Restaurant} {reason : Violation}
    (h : Fixture.ofRestaurant restaurant = .error reason) : (fixtureOf restaurant).check = .error reason := by
  change ((fixtureOf restaurant).check >>= fun _ => pure (fixtureOf restaurant)) = _ at h
  cases hc : (fixtureOf restaurant).check with
  | error other =>
    rw [hc] at h
    cases h
    rfl
  | ok _ =>
    rw [hc] at h
    cases h

theorem Attempt.events_logs (a : Attempt) (every needed : Nat) :
    a.Logs every needed (a.events every needed) := by
  unfold Attempt.events
  cases hresult : a.result with
  | ok f =>
    have ho : a.outcome.isRegistered = true := by rw [Attempt.outcome, hresult]; rfl
    exact ⟨fun h => absurd (ho.symm.trans h) (by decide), fun _ => rfl⟩
  | error e =>
    have ho : a.outcome = .failed a.number e.message := by rw [Attempt.outcome, hresult]
    refine ⟨fun _ => ⟨a.failureEvent e, ?_, rfl⟩, fun h => ?_⟩
    · unfold Attempt.result at hresult
      cases ha : a.answer with
      | error refusal =>
        rw [ha] at hresult
        cases hresult
        exact .refused refusal ha ho rfl
      | ok restaurant =>
        rw [ha] at hresult
        cases hf : Fixture.ofRestaurant restaurant with
        | ok f => simp [hf, Except.mapError] at hresult
        | error reason =>
          simp only [hf, Except.mapError, Except.error.injEq] at hresult
          subst hresult
          exact .unusable restaurant reason ha (check_of_ofRestaurant hf) ho rfl
    · rw [ho] at h
      cases h

/-- An attempt logs errors and progress. -/
theorem Attempt.mem_events {a : Attempt} {every needed : Nat} {event : Event}
    (h : event ∈ a.events every needed) : event.level = .error ∨ event.isProgress = true := by
  unfold Attempt.events at h
  rcases List.mem_append.1 h with h | h
  · cases hresult : a.result with
    | ok f => rw [hresult] at h; cases h
    | error e =>
      rw [hresult] at h
      obtain rfl := List.mem_singleton.1 h
      exact .inl (by cases e <;> rfl)
  · split at h
    · obtain rfl := List.mem_singleton.1 h
      exact .inr rfl
    · cases h

theorem attemptsOf_numbers (calls : List Call) : ∀ first,
    (attemptsOf first calls).map Attempt.number = List.range' first (attemptsOf first calls).length := by
  induction calls with
  | nil => exact fun _ => rfl
  | cons call calls ih =>
    intro first
    cases call with
    | register registration answer => exact congrArg (first :: ·) (ih (first + 1))
    | health | list | post | place => exact ih first

/-! ## Errors, progress and warnings -/

section

variable (every needed : Nat)

/-- The errors of some attempts are those of the failed ones. -/
theorem errors_of_attempts (made : List Attempt) :
    List.Forall₂ Attempt.Mirrors (made.filter fun a => !a.outcome.isRegistered)
      ((made.flatMap (Attempt.events every needed)).filter (·.level == .error)) := by
  induction made with
  | nil => exact .nil
  | cons a made ih =>
    have hlogs := a.events_logs every needed
    have hprogress : (if a.number % max every 1 = 0 then [Event.progress a.number needed] else []).filter
        (·.level == .error) = [] := by
      split <;> rfl
    rw [List.flatMap_cons, List.filter_append, List.filter_cons]
    cases ho : a.outcome.isRegistered with
    | true =>
      rw [hlogs.registered ho, hprogress]
      exact ih
    | false =>
      obtain ⟨error, hmirrors, hevents⟩ := hlogs.failed ho
      rw [hevents, List.filter_cons, if_pos (beq_iff_eq.2 hmirrors.level), hprogress]
      exact .cons hmirrors ih

theorem progress_of_attempts (made : List Attempt) :
    (made.flatMap (Attempt.events every needed)).filter Event.isProgress =
      ((made.map Attempt.number).filter (· % max every 1 = 0)).map (.progress · needed) := by
  induction made with
  | nil => rfl
  | cons a made ih =>
    have hlogs := a.events_logs every needed
    have hevents : (a.events every needed).filter Event.isProgress =
        if a.number % max every 1 = 0 then [.progress a.number needed] else [] := by
      cases ho : a.outcome.isRegistered with
      | true => rw [hlogs.registered ho]; split <;> rfl
      | false =>
        obtain ⟨error, hmirrors, hevents⟩ := hlogs.failed ho
        rw [hevents, List.filter_cons, Event.isProgress_of_error hmirrors.level, if_neg Bool.false_ne_true]
        split <;> rfl
    rw [List.flatMap_cons, List.filter_append, hevents, ih, List.map_cons, List.filter_cons]
    by_cases hdue : a.number % max every 1 = 0 <;> simp [hdue]

theorem warnings_of_attempts (made : List Attempt) :
    (made.flatMap (Attempt.events every needed)).filter (·.level == .warn) = [] := by
  refine List.filter_eq_nil_iff.2 fun event he => ?_
  obtain ⟨a, -, he⟩ := List.mem_flatMap.1 he
  rcases a.mem_events he with h | h
  · rw [h]
    exact Bool.false_ne_true
  · rw [Event.level_of_isProgress h]
    exact Bool.false_ne_true

/-- Attempts log nothing but errors and progress. -/
theorem filter_of_attempts (made : List Attempt) :
    (made.flatMap (Attempt.events every needed)).filter
        (fun event => event.level == .error || event.isProgress) =
      made.flatMap (Attempt.events every needed) := by
  refine List.filter_eq_self.2 fun event he => ?_
  obtain ⟨a, -, he⟩ := List.mem_flatMap.1 he
  rcases a.mem_events he with h | h
  · rw [h]
    rfl
  · rw [h, Bool.or_true]

end

namespace Run

variable {σ γ : Type}

/-! ## What the steps of a run log -/

/-- From one state of a run to another, such notable events are logged and others beside them. -/
def Adds (r q : Run σ γ) (notable : List Event) : Prop :=
  ∃ log, q.site.log = r.site.log ++ log ∧ log.filter Event.isNotable = notable

theorem Adds.trans {r q p : Run σ γ} {first second : List Event} (h : r.Adds q first)
    (h' : q.Adds p second) : r.Adds p (first ++ second) := by
  obtain ⟨log, hlog, hnotable⟩ := h
  obtain ⟨log', hlog', hnotable'⟩ := h'
  exact ⟨log ++ log', by rw [hlog', hlog, List.append_assoc],
    by rw [List.filter_append, hnotable, hnotable']⟩

/-- A step that logs nothing notable. -/
theorem Adds.quiet {r q p : Run σ γ} {notable : List Event} (h : r.Adds q notable) (h' : q.Adds p []) :
    r.Adds p notable := by
  have hboth := h.trans h'
  rwa [List.append_nil] at hboth

theorem adds_move (r : Run σ γ) (next : State) : r.Adds (r.move next) [] := ⟨[_], rfl, rfl⟩

theorem adds_say (r : Run σ γ) (events : List Event) :
    r.Adds (r.say events) (events.filter Event.isNotable) := ⟨events, rfl, rfl⟩

theorem adds_withGateway (r : Run σ γ) (g : γ) : r.Adds (r.withGateway g) [] :=
  ⟨[], (List.append_nil _).symm, rfl⟩

/-- What a listing is warned about. -/
def warnings (policy : Policy) : Except GatewayError (List Restaurant) → List Event
  | .ok _ => []
  | .error e => if policy = .bestEffort then [.listingFailed e.message] else []

theorem notable_of_save {s : Store} {d : Document} {files files' : FileTree} {events : List Event}
    (h : s.save d files = (.ok events, files')) : events.filter Event.isNotable = [] := by
  unfold Store.save at h
  split at h
  · cases h
  · split at h
    · cases h
    · split at h <;> cases h
      rfl

theorem save_adds (r : Run σ γ) (d : Document) : r.Adds (r.save d).2 [] := by
  unfold save
  rcases hs : r.seeder.store.save d r.site.files with ⟨result, files⟩
  cases result with
  | error e => exact ⟨[], (List.append_nil _).symm, rfl⟩
  | ok events => exact ⟨events, rfl, notable_of_save hs⟩

/-- Writing the document logs nothing notable. -/
theorem finish_adds (r : Run σ γ) (target : Nat) (found : List Fixture) (made : List Attempt) :
    r.Adds (r.finish target found made).2 [] := by
  unfold finish
  dsimp only
  split
  · exact adds_move r _
  · have hs := save_adds r ⟨found ++ made.filterMap Attempt.fixture?⟩
    split
    · rename_i e q hq
      rw [hq] at hs
      exact hs.quiet (adds_move q _)
    · rename_i q hq
      rw [hq] at hs
      exact (hs.quiet (adds_move q _)).quiet (adds_say _ [_])

variable [Gateway γ]

theorem discover_of_required {r : Run σ γ} {e : GatewayError} {g : γ}
    (hl : Gateway.list r.seeder.config.area r.site.gateway = (.error e, g))
    (hp : r.seeder.config.policy = .required) : r.discover = (.error e, r.withGateway g) := by
  unfold discover
  rw [hl]
  simp only [withGateway, hp]

/-- A listing that does not end the run logs nothing notable but the warning. -/
theorem discover_eq {r : Run σ γ} {listing : Except GatewayError (List Restaurant)} {g : γ}
    (hl : Gateway.list r.seeder.config.area r.site.gateway = (listing, g))
    (hp : r.seeder.config.policy = .required → listing.isOk) :
    ∃ events, events.filter Event.isNotable = warnings r.seeder.config.policy listing ∧
      r.discover = (.ok (foundIn listing), (r.withGateway g).say events) := by
  unfold discover
  rw [hl]
  cases listing with
  | ok listed => exact ⟨[_], rfl, rfl⟩
  | error e =>
    cases hpolicy : r.seeder.config.policy with
    | bestEffort =>
      simp only [withGateway, hpolicy]
      exact ⟨[_], rfl, rfl⟩
    | required => cases hp hpolicy

variable [Supply σ]

theorem topUp_adds {r : Run σ γ} {needed : Nat} {made : List Attempt} {supply : σ} {g : γ}
    (h : attempts needed 1 r.seeder.supply r.site.gateway = (made, supply, g)) :
    r.Adds (r.topUp needed).2
      ((made.flatMap (Attempt.events r.seeder.config.progressEvery needed)).filter Event.isNotable) := by
  unfold topUp
  rw [h]
  exact ⟨_, rfl, rfl⟩

/-! ## What a whole run logs -/

omit [Supply σ] in
theorem checkHealth_eq {r : Run σ γ} {healthy : Bool} {g : γ}
    (hh : Gateway.isHealthy r.site.gateway = (healthy, g)) : r.checkHealth = (healthy, r.withGateway g) := by
  rw [checkHealth, hh]

section

variable {r : Run σ γ} {g g' g'' : γ} (target : Nat)

theorem adds_of_unhealthy (hh : Gateway.isHealthy r.site.gateway = (false, g)) :
    r.Adds (r.ensure target).2 [] := by
  unfold ensure
  rw [checkHealth_eq (r := r.move .checkingAvailability) hh]
  exact (adds_move r _).quiet (adds_move _ _)

theorem adds_of_undiscovered {e : GatewayError} (hh : Gateway.isHealthy r.site.gateway = (true, g))
    (hl : Gateway.list r.seeder.config.area g = (.error e, g')) (hp : r.seeder.config.policy = .required) :
    r.Adds (r.ensure target).2 [] := by
  have hd := discover_of_required
    (r := ((r.move .checkingAvailability).withGateway g).move .discovering) hl hp
  unfold ensure
  rw [checkHealth_eq (r := r.move .checkingAvailability) hh]
  dsimp only
  rw [hd]
  exact ((((adds_move r _).quiet (adds_withGateway _ g)).quiet (adds_move _ _)).quiet
    (adds_withGateway _ g')).quiet (adds_move _ _)

/-- A run that comes to its attempts logs the warning, and then what there is to say of each of them. -/
theorem adds_of_attempts {listing : Except GatewayError (List Restaurant)} {made : List Attempt} {supply : σ}
    (hh : Gateway.isHealthy r.site.gateway = (true, g))
    (hl : Gateway.list r.seeder.config.area g = (listing, g'))
    (hp : r.seeder.config.policy = .required → listing.isOk)
    (ha : attempts (target - (foundIn listing).length) 1 r.seeder.supply g' = (made, supply, g'')) :
    r.Adds (r.ensure target).2 (warnings r.seeder.config.policy listing ++
      (made.flatMap (Attempt.events r.seeder.config.progressEvery made.length)).filter Event.isNotable) := by
  have hlength := attempts_length (target - (foundIn listing).length) 1 r.seeder.supply g'
  rw [ha] at hlength
  obtain ⟨events, hevents, hd⟩ :=
    discover_eq (r := ((r.move .checkingAvailability).withGateway g).move .discovering) hl hp
  unfold ensure
  rw [checkHealth_eq (r := r.move .checkingAvailability) hh]
  dsimp only
  rw [hd]
  dsimp only
  have hasked := (((adds_move r .checkingAvailability).quiet (adds_withGateway _ g)).quiet
    (adds_move _ .discovering)).quiet (adds_withGateway _ g')
  have hfound := (hasked.trans (adds_say _ events)).quiet (adds_move _ .toppingUp)
  rw [hevents] at hfound
  have hready := hfound.quiet (adds_say _ [.reconciling target (foundIn listing).length
    (target - (foundIn listing).length)])
  rw [show made.length = target - (foundIn listing).length from hlength]
  exact (hready.trans (topUp_adds ha)).quiet (finish_adds _ _ _ _)

end

/-! ## Runs and their calls -/

/-- Attempts are what the registrations among their calls say, and they list nothing. -/
theorem attempts_attemptsOf (count : Nat) : ∀ (first : Nat) (supply : σ) (g : Recorded γ), ∃ calls,
    (attempts count first supply g).2.2.calls = g.calls ++ calls ∧
      attemptsOf first calls = (attempts count first supply g).1 ∧ listingErrors calls = [] := by
  induction count with
  | zero => exact fun _ _ _ => ⟨[], (List.append_nil _).symm, rfl, rfl⟩
  | succ count ih =>
    intro first supply g
    obtain ⟨calls, hcalls, hmade, hlisted⟩ :=
      ih (first + 1) (Supply.next supply).2 (Gateway.register (Supply.next supply).1 g).2
    refine ⟨.register (Supply.next supply).1 (Gateway.register (Supply.next supply).1 g).1 :: calls,
      ?_, ?_, hlisted⟩
    · exact hcalls.trans (by simp [Gateway.register])
    · exact congrArg (_ :: ·) hmade

/-- The attempts of a run, from the calls that it makes. -/
def made (r : Run σ γ) (target : Nat) : List Attempt := attemptsOf 1 (r.calls target)

/-- What is logged of a listing that failed. -/
def warned (r : Run σ γ) (target : Nat) : List Event :=
  if r.seeder.config.policy = .bestEffort then
    (listingErrors (r.calls target)).map fun e => .listingFailed e.message
  else []

/-- A record of the calls logs nothing. -/
theorem Adds.of_recorded {r : Run σ γ} {target : Nat} {notable : List Event}
    (h : r.recorded.Adds (r.recorded.ensure target).2 notable) : r.Adds (r.ensure target).2 notable := by
  have he := ensure_erase r.recorded target
  have hr : r.recorded.erase = r := rfl
  rw [hr] at he
  rw [he]
  exact h

omit [Supply σ] in
theorem calls_of_undiscovered {r : Run σ γ} {g g' : Recorded γ} {e : GatewayError}
    (hh : Gateway.isHealthy r.recorded.site.gateway = (true, g))
    (hl : Gateway.list r.seeder.config.area g = (.error e, g')) :
    g'.calls = [.health true, .list r.seeder.config.area (.error e)] := by
  rw [list_calls hl, health_calls hh]
  rfl

section

variable {r : Run σ γ} {target : Nat} {g g' g'' : Recorded γ}
  {listing : Except GatewayError (List Restaurant)} {made : List Attempt} {supply : σ}
  (hh : Gateway.isHealthy r.recorded.site.gateway = (true, g))
  (hl : Gateway.list r.seeder.config.area g = (listing, g'))
  (ha : attempts (target - (foundIn listing).length) 1 r.seeder.supply g' = (made, supply, g''))
  (hcalls : r.calls target = g''.calls)
include hh hl ha hcalls

/-- The calls of a run that comes to its attempts are the listing and they. -/
theorem calls_of_attempts : ∃ calls,
    r.calls target = .health true :: .list r.seeder.config.area listing :: calls ∧
      attemptsOf 1 calls = made ∧ listingErrors calls = [] := by
  obtain ⟨calls, hadded, hmade, hlisted⟩ :=
    attempts_attemptsOf (target - (foundIn listing).length) 1 r.seeder.supply g'
  rw [ha] at hadded hmade
  refine ⟨calls, ?_, hmade, hlisted⟩
  rw [hcalls, hadded, list_calls hl, health_calls hh]
  rfl

theorem made_of_attempts : r.made target = made := by
  obtain ⟨calls, hrun, hmade, -⟩ := calls_of_attempts hh hl ha hcalls
  rw [Run.made, hrun]
  exact hmade

theorem warned_of_attempts : r.warned target = warnings r.seeder.config.policy listing := by
  obtain ⟨calls, hrun, -, hlisted⟩ := calls_of_attempts hh hl ha hcalls
  unfold warned warnings
  rw [hrun]
  cases listing with
  | ok listed =>
    show (if _ then (listingErrors calls).map _ else []) = _
    rw [hlisted]
    exact ite_self []
  | error e =>
    show (if _ then (e :: listingErrors calls).map _ else []) = _
    rw [hlisted]
    rfl

/-- The attempts make up what the target asks for beyond the restaurants found. -/
theorem length_of_attempts : ∃ listing, .list r.seeder.config.area listing ∈ r.calls target ∧
    (r.made target).length = target - (foundIn listing).length := by
  obtain ⟨calls, hrun, -, -⟩ := calls_of_attempts hh hl ha hcalls
  have hlength := attempts_length (target - (foundIn listing).length) 1 r.seeder.supply g'
  rw [ha] at hlength
  refine ⟨listing, ?_, ?_⟩
  · rw [hrun]
    exact List.mem_cons_of_mem _ List.mem_cons_self
  · rw [made_of_attempts hh hl ha hcalls]
    exact hlength

theorem notable_of_attempts (hp : r.seeder.config.policy = .required → listing.isOk) :
    r.recorded.Adds (r.recorded.ensure target).2 (r.warned target ++
      (r.made target).flatMap (Attempt.events r.seeder.config.progressEvery (r.made target).length)) := by
  have hnotable : (made.flatMap (Attempt.events r.seeder.config.progressEvery made.length)).filter
      Event.isNotable = made.flatMap (Attempt.events r.seeder.config.progressEvery made.length) := by
    refine List.filter_eq_self.2 fun event he => ?_
    rw [← filter_of_attempts] at he
    exact Event.isNotable_of_filter (List.mem_filter.1 he).2
  rw [warned_of_attempts hh hl ha hcalls, made_of_attempts hh hl ha hcalls, ← hnotable]
  exact adds_of_attempts (r := r.recorded) target hh hl hp ha

end

/-- The notable events of a run are the warning, and then what its attempts log one after the other. -/
theorem ensure_notable (r : Run σ γ) (target : Nat) :
    r.Adds (r.ensure target).2 (r.warned target ++
      (r.made target).flatMap (Attempt.events r.seeder.config.progressEvery (r.made target).length)) := by
  apply Adds.of_recorded
  have h := ensure_ensured r.recorded target
  have hcalls : r.calls target = (r.recorded.ensure target).2.site.gateway.calls := rfl
  generalize (r.recorded.ensure target).1 = result at h
  generalize hq : (r.recorded.ensure target).2 = q at h hcalls
  rw [← hq]
  cases h with
  | unreachable hh =>
    have hnone : r.calls target = [.health false] := hcalls.trans (health_calls hh)
    have hadds := adds_of_unhealthy (r := r.recorded) target hh
    simpa [warned, Run.made, hnone, listingErrors, attemptsOf] using hadds
  | @undiscovered _ _ e _ hh hl hp =>
    have hadds := adds_of_undiscovered (r := r.recorded) target hh hl hp
    have hlisted := hcalls.trans (calls_of_undiscovered hh hl)
    have hp : r.seeder.config.policy = .required := hp
    simpa [warned, Run.made, hlisted, listingErrors, attemptsOf, hp] using hadds
  | empty hh hl hp ha => exact notable_of_attempts hh hl ha hcalls hp
  | unsaved hh hl hp ha => exact notable_of_attempts hh hl ha hcalls hp
  | persisted hh hl hp ha => exact notable_of_attempts hh hl ha hcalls hp

/-- A report holds the outcomes of the attempts that were made. -/
theorem outcomes_of_report {r : Run σ γ} {target : Nat} {report : Report}
    (h : (r.ensure target).1 = .ok report) : report.outcomes = (r.made target).map Attempt.outcome := by
  obtain ⟨q, hq, -, hcalls⟩ := ensured_recorded r target
  rw [h] at hq
  generalize hres : Except.ok report = result at hq
  cases hq with
  | persisted hh hl hp ha =>
    cases hres
    rw [made_of_attempts hh hl ha hcalls]
    rfl
  | _ => cases hres

/-- The events of a log that are all notable are found among its notable ones. -/
theorem filter_of_notable {p : Event → Bool} (hp : ∀ event, p event = true → event.isNotable = true)
    {log notable : List Event} (h : log.filter Event.isNotable = notable) :
    log.filter p = notable.filter p := by
  rw [← h, List.filter_filter]
  refine List.filter_congr fun event _ => ?_
  cases hpe : p event with
  | false => rfl
  | true => rw [hp event hpe]; rfl

/-- What a log says of some attempts, and of the listings that failed before them. -/
structure Mirrored (log : List Event) (every : Nat) (made : List Attempt) (unlisted : List GatewayError) :
    Prop where
  /-- There is one error for each failed attempt. -/
  errors : List.Forall₂ Attempt.Mirrors (made.filter fun a => !a.outcome.isRegistered)
    (log.filter (·.level == .error))
  progress : (log.filter Event.isProgress).map Event.line =
    ((List.range' 1 made.length).filter (· % max every 1 = 0)).map fun k =>
      (.info, s!"seeded {k}/{made.length} restaurants", [])
  /-- An error stands before the progress that counts its attempt. -/
  order : ∃ segments, List.Forall₂ (fun a events => a.Logs every made.length events) made segments ∧
    log.filter (fun event => event.level == .error || event.isProgress) = segments.flatten
  warnings : (log.filter (·.level == .warn)).map Event.line = unlisted.map fun e =>
    (.warn, "could not list existing restaurants, continuing with none", [("error", e.message)])

theorem level_of_warned {r : Run σ γ} {target : Nat} {event : Event} (h : event ∈ r.warned target) :
    event.level = .warn := by
  unfold warned at h
  split at h
  · obtain ⟨e, -, rfl⟩ := List.mem_map.1 h
    rfl
  · cases h

theorem filter_warned {p : Event → Bool} (hp : ∀ event, p event = true → event.level ≠ .warn)
    (r : Run σ γ) (target : Nat) (events : List Event) :
    (r.warned target ++ events).filter p = events.filter p := by
  rw [List.filter_append, List.filter_eq_nil_iff.2 fun event he h => hp event h (level_of_warned he)]
  rfl

theorem warned_line (r : Run σ γ) (target : Nat) : (r.warned target).map Event.line =
    (if r.seeder.config.policy = .bestEffort then listingErrors (r.calls target) else []).map fun e =>
      (.warn, "could not list existing restaurants, continuing with none", [("error", e.message)]) := by
  unfold warned
  split
  · rw [List.map_map]
    rfl
  · rfl

/-- The notable events of a run, read by level and by attempt. -/
theorem mirrored_of_notable {r : Run σ γ} {target every : Nat} {log : List Event} {made : List Attempt}
    (hnumbers : made.map Attempt.number = List.range' 1 made.length)
    (h : log.filter Event.isNotable =
      r.warned target ++ made.flatMap (Attempt.events every made.length)) :
    Mirrored log every made
      (if r.seeder.config.policy = .bestEffort then listingErrors (r.calls target) else []) where
  errors := by
    rw [filter_of_notable (fun event he => Event.isNotable_of_filter (by rw [he]; rfl)) h,
      filter_warned fun event he hw => by rw [hw] at he; cases he]
    exact errors_of_attempts every made.length made
  progress := by
    rw [filter_of_notable (fun event he => Event.isNotable_of_filter (by rw [he, Bool.or_true])) h,
      filter_warned fun event he hw => (Event.level_of_isProgress he ▸ nofun : event.level ≠ .warn) hw,
      progress_of_attempts, hnumbers, List.map_map]
    rfl
  order := by
    refine ⟨made.map (Attempt.events every made.length), ?_, ?_⟩
    · exact List.forall₂_map_right_iff.2
        (List.forall₂_same.2 fun a _ => a.events_logs every made.length)
    · rw [filter_of_notable (fun event => Event.isNotable_of_filter) h, filter_warned,
        filter_of_attempts, List.flatMap_def]
      intro event he hw
      rcases Bool.or_eq_true_iff.1 he with he | he
      · rw [hw] at he
        cases he
      · rw [Event.level_of_isProgress he] at hw
        cases hw
  warnings := by
    rw [filter_of_notable (fun event he => by simp [Event.isNotable, he]) h, List.filter_append,
      warnings_of_attempts, List.append_nil,
      List.filter_eq_self.2 fun event he => by rw [level_of_warned he]; rfl, warned_line]

/-- A run makes no attempt, or as many as the target asks for beyond the restaurants found. -/
theorem made_length (r : Run σ γ) (target : Nat) : r.made target = [] ∨
    ∃ listing, .list r.seeder.config.area listing ∈ r.calls target ∧
      (r.made target).length = target - (foundIn listing).length := by
  obtain ⟨q, hq, -, hcalls⟩ := ensured_recorded r target
  generalize (r.ensure target).1 = result at hq
  cases hq with
  | unreachable hh =>
    have hnone : r.calls target = [.health false] := hcalls.trans (health_calls hh)
    exact .inl (by rw [made, hnone]; rfl)
  | @undiscovered _ _ e _ hh hl hp =>
    have hlisted := hcalls.trans (calls_of_undiscovered hh hl)
    exact .inl (by rw [made, hlisted]; rfl)
  | empty hh hl hp ha => exact .inr (length_of_attempts hh hl ha hcalls)
  | unsaved hh hl hp ha => exact .inr (length_of_attempts hh hl ha hcalls)
  | persisted hh hl hp ha => exact .inr (length_of_attempts hh hl ha hcalls)

/-- Of the attempts of a run, the failed ones and they alone are logged as errors, with the number and the
reason that are reported; progress is logged of those that are due, behind their errors; and the one warning
is about the listing that a run went on without. -/
theorem log_mirrors_outcomes (r : Run σ γ) (target : Nat) :
    ∃ log, (r.ensure target).2.site.log = r.site.log ++ log ∧
      (∀ report, (r.ensure target).1 = .ok report → report.outcomes = (r.made target).map Attempt.outcome) ∧
      (r.made target).map Attempt.number = List.range' 1 (r.made target).length ∧
      (r.made target = [] ∨ ∃ listing, .list r.seeder.config.area listing ∈ r.calls target ∧
        (r.made target).length = target - (foundIn listing).length) ∧
      Mirrored log r.seeder.config.progressEvery (r.made target)
        (if r.seeder.config.policy = .bestEffort then listingErrors (r.calls target) else []) := by
  obtain ⟨log, hlog, hnotable⟩ := ensure_notable r target
  have hnumbers : (r.made target).map Attempt.number = List.range' 1 (r.made target).length :=
    attemptsOf_numbers (r.calls target) 1
  exact ⟨log, hlog, fun _ => outcomes_of_report, hnumbers, made_length r target,
    mirrored_of_notable hnumbers hnotable⟩

theorem log_mirrors_outcomes_mixed : ∃ report log, (mixed.ensure 4).1 = .ok report ∧
    (mixed.ensure 4).2.site.log = mixed.site.log ++ log ∧
    report.outcomes = (mixed.made 4).map Attempt.outcome ∧ Mirrored log 1 (mixed.made 4) [] ∧
    (log.filter Event.isNotable).map Event.message =
      ["failed to register restaurant", "seeded 1/3 restaurants", "seeded 2/3 restaurants",
        "registration returned an unusable restaurant", "seeded 3/3 restaurants"] := by
  have hmessages : ((mixed.ensure 4).2.site.log.filter Event.isNotable).map Event.message =
      ["failed to register restaurant", "seeded 1/3 restaurants", "seeded 2/3 restaurants",
        "registration returned an unusable restaurant", "seeded 3/3 restaurants"] := by
    decide +kernel
  have hreport : (mixed.ensure 4).1.isOk = true := by decide +kernel
  have hlisted : listingErrors (mixed.calls 4) = [] := by decide +kernel
  obtain ⟨log, hlog, houtcomes, -, -, hmirrored⟩ := log_mirrors_outcomes mixed 4
  rw [hlisted, ite_self] at hmirrored
  cases h : (mixed.ensure 4).1 with
  | error e =>
    rw [h] at hreport
    cases hreport
  | ok report =>
    refine ⟨report, log, rfl, hlog, houtcomes report h, hmirrored, ?_⟩
    rw [hlog] at hmessages
    exact hmessages

end Run

end Seeding

end LunchRush
