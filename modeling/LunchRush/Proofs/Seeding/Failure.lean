import LunchRush.Gateway.Scripted
import LunchRush.Proofs.Files.Saving
import LunchRush.Proofs.Seeding.Calls
import LunchRush.Random.ChaCha
/-!
# How a run ends

A run that fails leaves the document alone, and every run ends in the state that belongs to its
answer, whatever the runs before it have left (`every_run_settles`). A path that goes up with `..`
from a missing directory is the one case in which a document can be there after a run that failed
and not before it: the directory is made, and the path then leads to a file that was there all the
time (`failed_run_uncovers_document`).
-/

namespace LunchRush.Seeding

namespace Run

variable {σ γ : Type} [Gateway γ] [Supply σ]

/-- The run after runs for some targets, one after the other. -/
def after (r : Run σ γ) : List Nat → Run σ γ
  | [] => r
  | target :: targets => (r.ensure target).2.after targets

/-- How a run for `target` restaurants ends, whatever state the last run has left: its state, the
document and the calls that belong to its answer. -/
structure Settles (r : Run σ γ) (target : Nat) : Prop where
  terminal : (r.ensure target).2.seeder.state.isTerminal = true
  persisted : (r.ensure target).2.seeder.state = .persisted ↔
    ∃ report, (r.ensure target).1 = .ok report
  unreachable : (r.ensure target).2.seeder.state = .aborted .unreachable ↔
    (r.ensure target).1 = .error .unavailable
  discoveryFailed : (r.ensure target).2.seeder.state = .aborted .discoveryFailed ↔
    ∃ source, (r.ensure target).1 = .error (.discoveryFailed source)
  empty : (r.ensure target).2.seeder.state = .aborted .empty ↔
    ∃ attempted failed, (r.ensure target).1 = .error (.nothingUsable attempted failed)
  storeFailed : (r.ensure target).2.seeder.state = .aborted .storeFailed ↔
    ∃ source, (r.ensure target).1 = .error (.store source)
  /-- A run that fails leaves the document as it was. Only a path that goes up may come to lead to
  a file, and that file was there before. -/
  document : ∀ e, (r.ensure target).1 = .error e →
    r.seeder.store.document? (r.ensure target).2.site.files =
        r.seeder.store.document? r.site.files ∨
      (".." ∈ Path.segments r.seeder.store.path ∧ r.seeder.store.document? r.site.files = none ∧
        ∃ location content, r.site.files.get? location = some (.file content) ∧
          (r.ensure target).2.site.files.Finds r.seeder.store.path location ∧
          r.seeder.store.document? (r.ensure target).2.site.files = some content)
  unreachable_calls : (r.ensure target).1 = .error .unavailable → r.calls target = [.health false]
  discoveryFailed_calls : ∀ source, (r.ensure target).1 = .error (.discoveryFailed source) →
    r.seeder.config.policy = .required ∧
      r.calls target = [.health true, .list r.seeder.config.area (.error source)]
  empty_counts : ∀ attempted failed,
    (r.ensure target).1 = .error (.nothingUsable attempted failed) →
      attempted = target ∧ failed = target

/-! ## What a run keeps -/

/-- A run keeps the store and the configuration, and a rooted tree of files. -/
theorem ensure_keeps (r : Run σ γ) (target : Nat) :
    (r.ensure target).2.seeder.store = r.seeder.store ∧
      (r.ensure target).2.seeder.config = r.seeder.config ∧
      (r.site.files.Rooted → (r.ensure target).2.site.files.Rooted) := by
  have h := ensure_ensured r target
  generalize (r.ensure target).1 = result, (r.ensure target).2 = q at h
  cases h with
  | unreachable => exact ⟨rfl, rfl, id⟩
  | undiscovered => exact ⟨rfl, rfl, id⟩
  | empty => exact ⟨rfl, rfl, id⟩
  | unsaved _ _ _ _ _ hs => exact ⟨rfl, rfl, (Store.saves_of_error hs).rooted⟩
  | persisted _ _ _ _ _ hs => exact ⟨rfl, rfl, (Store.saves_of_ok hs).rooted⟩

theorem after_keeps (earlier : List Nat) : ∀ r : Run σ γ,
    (r.after earlier).seeder.store = r.seeder.store ∧
      (r.after earlier).seeder.config = r.seeder.config ∧
      (r.site.files.Rooted → (r.after earlier).site.files.Rooted) := by
  induction earlier with
  | nil => intro r; exact ⟨rfl, rfl, id⟩
  | cons target earlier ih =>
    intro r
    obtain ⟨hs, hc, hr⟩ := ensure_keeps r target
    obtain ⟨hs', hc', hr'⟩ := ih (r.ensure target).2
    exact ⟨hs'.trans hs, hc'.trans hc, fun h => hr' (hr h)⟩

/-! ## How a run ends -/

theorem ensure_state (r : Run σ γ) (target : Nat) :
    (r.ensure target).2.seeder.state =
      match (r.ensure target).1 with
      | .ok _ => .persisted
      | .error e => .aborted e.abort := by
  have h := ensure_ensured r target
  generalize (r.ensure target).1 = result, (r.ensure target).2 = q at h ⊢
  cases h <;> rfl

theorem ensure_document (r : Run σ γ) (hr : r.site.files.Rooted) (target : Nat) {e : Error}
    (he : (r.ensure target).1 = .error e) :
    r.seeder.store.document? (r.ensure target).2.site.files =
        r.seeder.store.document? r.site.files ∨
      (".." ∈ Path.segments r.seeder.store.path ∧ r.seeder.store.document? r.site.files = none ∧
        ∃ location content, r.site.files.get? location = some (.file content) ∧
          (r.ensure target).2.site.files.Finds r.seeder.store.path location ∧
          r.seeder.store.document? (r.ensure target).2.site.files = some content) := by
  have h := ensure_ensured r target
  generalize (r.ensure target).1 = result, (r.ensure target).2 = q at h he ⊢
  cases h with
  | unreachable => exact .inl rfl
  | undiscovered => exact .inl rfl
  | empty => exact .inl rfl
  | unsaved _ _ _ _ _ hs => exact (Store.saves_of_error hs).document hr
  | persisted => cases he

theorem unreachable_calls {r : Run σ γ} {target : Nat}
    (he : (r.ensure target).1 = .error .unavailable) : r.calls target = [.health false] := by
  obtain ⟨q, hq, -, hcalls⟩ := ensured_recorded r target
  rw [he] at hq
  cases hq with
  | unreachable hh => rw [hcalls]; exact health_calls hh

theorem discoveryFailed_calls {r : Run σ γ} {target : Nat} {source : GatewayError}
    (he : (r.ensure target).1 = .error (.discoveryFailed source)) :
    r.seeder.config.policy = .required ∧
      r.calls target = [.health true, .list r.seeder.config.area (.error source)] := by
  obtain ⟨q, hq, -, hcalls⟩ := ensured_recorded r target
  rw [he] at hq
  cases hq with
  | undiscovered hh hl hp =>
    refine ⟨hp, ?_⟩
    rw [hcalls]
    exact (list_calls hl).trans (by rw [health_calls hh]; rfl)

/-- A run that finds nothing has tried `target` times, each time in vain. -/
theorem empty_counts {r : Run σ γ} {target attempted failed : Nat}
    (he : (r.ensure target).1 = .error (.nothingUsable attempted failed)) :
    attempted = target ∧ failed = target := by
  have h := ensure_ensured r target
  rw [he] at h
  generalize (r.ensure target).2 = q at h
  cases h with
  | @empty _ g' _ listing _ made _ _ _ _ ha hn =>
    obtain ⟨hfound, hbrought⟩ := List.append_eq_nil_iff.1 hn
    have hlen := attempts_length (target - (foundIn listing).length) 1 r.seeder.supply g'
    rw [ha, hfound] at hlen
    rw [registered_length, hbrought]
    exact ⟨by simpa using hlen, by simpa using hlen⟩

theorem aborted_iff (r : Run σ γ) (target : Nat) (reason : Abort) :
    (r.ensure target).2.seeder.state = .aborted reason ↔
      ∃ e, (r.ensure target).1 = .error e ∧ e.abort = reason := by
  rw [ensure_state]
  split <;> rename_i h <;> simp [h]

theorem run_settles (r : Run σ γ) (hr : r.site.files.Rooted) (target : Nat) : r.Settles target where
  terminal := by rw [ensure_state]; split <;> rfl
  persisted := by rw [ensure_state]; split <;> rename_i h <;> simp [h]
  unreachable := by
    rw [aborted_iff]
    exact ⟨by rintro ⟨e, he, ha⟩; cases e <;> cases ha; exact he, fun h => ⟨_, h, rfl⟩⟩
  discoveryFailed := by
    rw [aborted_iff]
    exact ⟨by rintro ⟨e, he, ha⟩; cases e <;> cases ha; exact ⟨_, he⟩, fun ⟨_, h⟩ => ⟨_, h, rfl⟩⟩
  empty := by
    rw [aborted_iff]
    exact ⟨by rintro ⟨e, he, ha⟩; cases e <;> cases ha; exact ⟨_, _, he⟩,
      fun ⟨_, _, h⟩ => ⟨_, h, rfl⟩⟩
  storeFailed := by
    rw [aborted_iff]
    exact ⟨by rintro ⟨e, he, ha⟩; cases e <;> cases ha; exact ⟨_, he⟩, fun ⟨_, h⟩ => ⟨_, h, rfl⟩⟩
  document e he := ensure_document r hr target he
  unreachable_calls := unreachable_calls
  discoveryFailed_calls _ := discoveryFailed_calls
  empty_counts _ _ := empty_counts

/-- A seeder with a document that its path does not reach yet, and a directory in the place of the
draft. -/
def uncovering : Run Random.ChaCha ScriptedGateway :=
  ⟨⟨⟨"missing/../doc.yaml"⟩, .ofSeed 0x5eed, .testing, .unstarted⟩,
    ⟨⟨true, .ok [⟨⟨"r1"⟩, "", "", 0.0, 0.0, [⟨⟨"i1"⟩, "Soup", "", 60.0⟩]⟩], [], []⟩,
      ⟨[(["doc.yaml.tmp"], .directory), (["doc.yaml"], .file "restaurants: []\n".toUTF8)]⟩, []⟩⟩

end Run

end LunchRush.Seeding
