import LunchRush.Proofs.Generate.Restaurant
import LunchRush.Proofs.Seeding.Calls
import LunchRush.Random.ChaCha
/-!
# Which registrations are sent

A run takes one registration from its supply for each that it sends, and none else, whatever it is
answered (`sent_supplied`). So all that a seeder ever sends is the start of one sequence, and the
seed alone says which (`registrations_replay`).
-/

namespace LunchRush.Seeding

/-! ## Supplies -/

/-- The supply after some registrations were taken. -/
def takenFrom {σ : Type} [Supply σ] : (count : Nat) → σ → σ
  | 0, supply => supply
  | count + 1, supply => takenFrom count (Supply.next supply).2

section Supplied

variable {σ : Type} [Supply σ]

theorem takenFrom_add (m n : Nat) (supply : σ) :
    takenFrom (m + n) supply = takenFrom n (takenFrom m supply) := by
  induction m generalizing supply with
  | zero => rw [Nat.zero_add]; rfl
  | succ m ih => rw [Nat.succ_add]; exact ih _

theorem supplied_add (m n : Nat) (supply : σ) :
    supplied (m + n) supply = supplied m supply ++ supplied n (takenFrom m supply) := by
  induction m generalizing supply with
  | zero => rw [Nat.zero_add]; rfl
  | succ m ih =>
    rw [Nat.succ_add, supplied, ih]
    rfl

/-- The registration that a supply gives after some others. -/
def suppliedAt (supply : σ) (n : Nat) : Registration := (Supply.next (takenFrom n supply)).1

theorem supplied_eq_map (count : Nat) (supply : σ) :
    supplied count supply = (List.range count).map (suppliedAt supply) := by
  induction count with
  | zero => rfl
  | succ count ih =>
    rw [supplied_add, ih, List.range_succ, List.map_append]
    rfl

end Supplied

/-! ## Runs -/

/-- The registration that a call sends. -/
def sentBy : Call → Option Registration
  | .register registration _ => some registration
  | _ => none

theorem filterMap_sentBy {registrations : List Registration}
    {answers : List (Except GatewayError Restaurant)} (h : registrations.length = answers.length) :
    (List.zipWith Call.register registrations answers).filterMap sentBy = registrations := by
  induction answers generalizing registrations with
  | nil => simpa using h
  | cons answer answers ih =>
    cases registrations with
    | nil => cases h
    | cons registration registrations =>
      rw [List.zipWith_cons_cons, List.filterMap_cons, ih (by simpa using h)]
      rfl

namespace Run

variable {σ γ : Type} [Gateway γ] [Supply σ]

/-- The registrations that a run for `target` restaurants sends, in order. -/
def sent (r : Run σ γ) (target : Nat) : List Registration := (r.calls target).filterMap sentBy

theorem attempts_supply (count : Nat) : ∀ (first : Nat) (supply : σ) (g : γ),
    (attempts count first supply g).2.1 = takenFrom count supply := by
  induction count with
  | zero => intro _ _ _; rfl
  | succ count ih =>
    intro first supply g
    simp only [attempts, ih]
    rfl

/-- What attempts send, and what they leave of the supply. -/
theorem attempts_sent {count : Nat} {supply supply' : σ} {g g' : Recorded γ} {made : List Attempt}
    (h : attempts count 1 supply g = (made, supply', g')) :
    g'.calls.filterMap sentBy = g.calls.filterMap sentBy ++ supplied count supply ∧
      supply' = takenFrom count supply := by
  have hcalls := attempts_calls count 1 supply g
  have hlength := attempts_length count 1 supply g
  have hsupply := attempts_supply count 1 supply g
  rw [h] at hcalls hlength hsupply
  refine ⟨?_, hsupply⟩
  rw [hcalls, List.filterMap_append, filterMap_sentBy (by rw [supplied_length, List.length_map, hlength])]

/-- However a run goes, what it sends is what it has taken from its supply. -/
theorem sent_supplied (r : Run σ γ) (target : Nat) :
    ∃ count, r.sent target = supplied count r.seeder.supply ∧
      (r.ensure target).2.seeder.supply = takenFrom count r.seeder.supply := by
  obtain ⟨q, hq, he, hcalls⟩ := ensured_recorded r target
  unfold sent
  rw [he, hcalls]
  generalize (r.ensure target).1 = result at hq
  cases hq with
  | @unreachable g _ hh =>
    refine ⟨0, ?_, rfl⟩
    change g.calls.filterMap sentBy = []
    rw [health_calls hh]
    rfl
  | @undiscovered g g' _ _ hh hl _ =>
    refine ⟨0, ?_, rfl⟩
    change g'.calls.filterMap sentBy = []
    rw [list_calls hl, health_calls hh]
    rfl
  | empty hh hl _ ha _ =>
    obtain ⟨hsent, hsupply⟩ := attempts_sent ha
    refine ⟨_, hsent.trans ?_, hsupply⟩
    rw [list_calls hl, health_calls hh]
    rfl
  | unsaved hh hl _ ha _ _ =>
    obtain ⟨hsent, hsupply⟩ := attempts_sent ha
    refine ⟨_, hsent.trans ?_, hsupply⟩
    rw [list_calls hl, health_calls hh]
    rfl
  | persisted hh hl _ ha _ _ =>
    obtain ⟨hsent, hsupply⟩ := attempts_sent ha
    refine ⟨_, hsent.trans ?_, hsupply⟩
    rw [list_calls hl, health_calls hh]
    rfl

end Run

/-! ## Histories -/

section Histories

variable {σ γ : Type} [Gateway γ] [Supply σ]

/-- A seeder after some runs, each at a site as it then is and for some target. -/
def Seeder.after (s : Seeder σ) : List (Site γ × Nat) → Seeder σ
  | [] => s
  | (site, target) :: later => Seeder.after (Run.ensure ⟨s, site⟩ target).2.seeder later

/-- The registrations that a seeder sends in some runs, in order. -/
def Seeder.sent (s : Seeder σ) : List (Site γ × Nat) → List Registration
  | [] => []
  | (site, target) :: later =>
    Run.sent ⟨s, site⟩ target ++ Seeder.sent (Run.ensure ⟨s, site⟩ target).2.seeder later

/-- All that was sent was taken from the supply, and nothing else was. -/
theorem Seeder.sent_supplied (s : Seeder σ) (history : List (Site γ × Nat)) :
    s.sent history = supplied (s.sent history).length s.supply ∧
      (s.after history).supply = takenFrom (s.sent history).length s.supply := by
  suffices ∃ count, s.sent history = supplied count s.supply ∧
      (s.after history).supply = takenFrom count s.supply by
    obtain ⟨count, hsent, hsupply⟩ := this
    rw [hsent, supplied_length]
    exact ⟨rfl, hsupply⟩
  induction history generalizing s with
  | nil => exact ⟨0, rfl, rfl⟩
  | cons call later ih =>
    obtain ⟨site, target⟩ := call
    obtain ⟨count, hsent, hsupply⟩ := Run.sent_supplied ⟨s, site⟩ target
    obtain ⟨more, hlater, hleft⟩ := ih (Run.ensure ⟨s, site⟩ target).2.seeder
    rw [hsupply] at hlater hleft
    exact ⟨count + more, by rw [Seeder.sent, hsent, hlater, supplied_add],
      by rw [Seeder.after, hleft, takenFrom_add]⟩

end Histories

/-! ## Seeds -/

/-- What a supply gives is what is drawn from its words, unless the draw never ends. -/
theorem registration_next (supply : Random.ChaCha) :
    Generate.registration supply = .ok (Supply.next supply) ∨
      Generate.registration supply = .error .endless ∧ Random.PassesOver supply := by
  obtain ⟨r, taken, hr, -⟩ | hendless := Generate.registration_yields supply
  · left
    rw [hr]
    exact congrArg Except.ok
      (show (r, Random.after taken supply) = Supply.next supply by simp only [Supply.next, hr])
  · exact .inr hendless

/-- Each seed has one sequence of registrations, drawn one after the other from its words; a draw
does not end only where every word is passed over from some place on. Whatever the sites are at which
a seeder with that seed runs, and whatever it is answered there, it sends the start of that sequence
and its supply is then where the sequence goes on; so a run that sends nothing leaves the supply as it
was. -/
theorem registrations_replay (seed : UInt64) :
    ∃ (sequence : Nat → Registration) (supply : Nat → Random.ChaCha), supply 0 = .ofSeed seed ∧
      (∀ n, Generate.registration (supply n) = .ok (sequence n, supply (n + 1)) ∨
        Generate.registration (supply n) = .error .endless ∧ Random.PassesOver (supply n)) ∧
      ∀ (γ : Type) [Gateway γ] (store : Store) (config : Config) (state : State)
        (history : List (Site γ × Nat)),
        let seeder : Seeder Random.ChaCha := ⟨store, .ofSeed seed, config, state⟩
        seeder.sent history = (List.range (seeder.sent history).length).map sequence ∧
        (seeder.after history).supply = supply (seeder.sent history).length ∧
        ∀ (site : Site γ) (target : Nat), Run.sent ⟨seeder.after history, site⟩ target = [] →
          (Run.ensure ⟨seeder.after history, site⟩ target).2.seeder.supply =
            (seeder.after history).supply := by
  refine ⟨suppliedAt (Random.ChaCha.ofSeed seed), fun n => takenFrom n (.ofSeed seed), rfl,
    fun n => ?_, ?_⟩
  · dsimp only
    rw [takenFrom_add]
    exact registration_next _
  · intro γ _ store config state history seeder
    obtain ⟨hsent, hsupply⟩ := seeder.sent_supplied history
    refine ⟨?_, hsupply, ?_⟩
    · rw [← supplied_eq_map]
      exact hsent
    · intro site target hnone
      obtain ⟨count, hcount, hleft⟩ := Run.sent_supplied ⟨seeder.after history, site⟩ target
      rw [hnone] at hcount
      have hzero : count = 0 := by simpa [supplied_length] using (congrArg List.length hcount).symm
      rw [hleft, hzero]
      rfl

end LunchRush.Seeding
