import LunchRush.Load.Summary
import Mathlib.Algebra.GroupWithZero.Nat
import Mathlib.Data.List.Basic
/-!
# What a recorder counts

The figures of a summary are numbers of outcomes: each figure goes up by one with every outcome of
its kind (`Counts`), so after any number of records it is the number of those outcomes
(`Counts.recordAll`), in whatever order they came. The counts by status are kept in order and none is
zero (`Tidy`).
-/

namespace LunchRush.Summary

/-! ## Counts by status -/

/-- The statuses rise, and each has been counted. -/
structure Tidy (counts : List (Nat × Nat)) : Prop where
  ordered : counts.Pairwise fun a b => a.1 < b.1
  positive : ∀ entry ∈ counts, 0 < entry.2

/-- How often a status was counted. -/
def countOf (status : Nat) (counts : List (Nat × Nat)) : Nat := (counts.lookup status).getD 0

theorem mem_countStatus {status : Nat} {counts : List (Nat × Nat)} {entry : Nat × Nat}
    (h : entry ∈ countStatus status counts) :
    (∃ old ∈ counts, old.1 = entry.1 ∧ old.2 ≤ entry.2) ∨ (entry.1 = status ∧ 0 < entry.2) := by
  induction counts with
  | nil =>
    simp [countStatus] at h
    simp [h]
  | cons first counts ih =>
    simp only [countStatus] at h
    split at h
    · rcases List.mem_cons.1 h with rfl | h
      · simp
      · exact .inl ⟨entry, h, rfl, Nat.le_refl _⟩
    · split at h
      · rcases List.mem_cons.1 h with rfl | h
        · exact .inl ⟨first, by simp⟩
        · exact .inl ⟨entry, by simp [h]⟩
      · rcases List.mem_cons.1 h with rfl | h
        · exact .inl ⟨first, by simp⟩
        · rcases ih h with ⟨old, hold, he⟩ | he
          · exact .inl ⟨old, by simp [hold], he⟩
          · exact .inr he

theorem Tidy.countStatus {counts : List (Nat × Nat)} (h : Tidy counts) (status : Nat) :
    Tidy (countStatus status counts) := by
  constructor
  · induction counts with
    | nil => simp [Summary.countStatus]
    | cons first counts ih =>
      obtain ⟨hfirst, hrest⟩ := List.pairwise_cons.1 h.ordered
      have hlater : Tidy counts := ⟨hrest, fun entry he => h.positive entry (by simp [he])⟩
      simp only [Summary.countStatus]
      split
      · rename_i hlt
        refine List.pairwise_cons.2 ⟨?_, h.ordered⟩
        intro entry he
        rcases List.mem_cons.1 he with rfl | he
        · exact hlt
        · exact Nat.lt_trans hlt (hfirst entry he)
      · split
        · exact List.pairwise_cons.2 ⟨hfirst, hrest⟩
        · refine List.pairwise_cons.2 ⟨?_, ih hlater⟩
          intro entry he
          rcases mem_countStatus he with ⟨old, hold, heq, -⟩ | ⟨heq, -⟩
          · exact heq ▸ hfirst old hold
          · dsimp only
            omega
  · intro entry he
    rcases mem_countStatus he with ⟨old, hold, -, hle⟩ | ⟨-, hpos⟩
    · exact Nat.lt_of_lt_of_le (h.positive old hold) hle
    · exact hpos

theorem countOf_cons (status s n : Nat) (counts : List (Nat × Nat)) :
    countOf status ((s, n) :: counts) = if status = s then n else countOf status counts := by
  by_cases h : status = s
  · simp [countOf, h]
  · have hb : (status == s) = false := by simpa using h
    simp [countOf, List.lookup_cons, h, hb]

/-- A status that comes before all others has not been counted. -/
theorem countOf_of_lt {status : Nat} {counts : List (Nat × Nat)}
    (h : ∀ entry ∈ counts, status < entry.1) : countOf status counts = 0 := by
  induction counts with
  | nil => rfl
  | cons first counts ih =>
    have hne : status ≠ first.1 := Nat.ne_of_lt (h first List.mem_cons_self)
    rw [countOf_cons, if_neg hne]
    exact ih fun entry he => h entry (List.mem_cons_of_mem _ he)

/-- Counting a status adds one to it and to no other. -/
theorem countOf_countStatus (status counted : Nat) {counts : List (Nat × Nat)} (h : Tidy counts) :
    countOf status (countStatus counted counts) =
      countOf status counts + if counted = status then 1 else 0 := by
  induction counts with
  | nil =>
    rw [countStatus, countOf_cons]
    by_cases he : status = counted
    · simp [he, countOf]
    · simp [he, Ne.symm he, countOf]
  | cons first counts ih =>
    obtain ⟨hfirst, hrest⟩ := List.pairwise_cons.1 h.ordered
    have hlater := ih ⟨hrest, fun entry he => h.positive entry (by simp [he])⟩
    simp only [countStatus]
    split
    · rename_i hlt
      rw [countOf_cons]
      split
      · rename_i he
        rw [countOf_of_lt, if_pos he.symm]
        intro entry hentry
        rcases List.mem_cons.1 hentry with rfl | hentry
        · omega
        · exact he ▸ Nat.lt_trans hlt (hfirst entry hentry)
      · rename_i he
        rw [if_neg (Ne.symm he)]
        rfl
    · split
      · rename_i he
        rw [countOf_cons, countOf_cons, he]
        by_cases hs : status = first.1
        · simp [hs]
        · simp [hs, Ne.symm hs]
      · rename_i hlt hne
        rw [countOf_cons, countOf_cons, hlater]
        split
        · rename_i hs
          rw [if_neg (by omega)]
          rfl
        · rfl

theorem sum_countStatus (status : Nat) (counts : List (Nat × Nat)) :
    ((countStatus status counts).map Prod.snd).sum = (counts.map Prod.snd).sum + 1 := by
  induction counts with
  | nil => rfl
  | cons first counts ih =>
    simp only [countStatus]
    split
    · simp [Nat.add_comm]
    · split
      · simp [Nat.add_right_comm]
      · simp [ih, Nat.add_assoc]

/-! ## Records -/

/-- The summary after some records. -/
def recordAll (s : Summary) (records : List (Outcome × Duration)) : Summary :=
  records.foldl (fun s r => s.record r.1 r.2) s

/-- A figure that every outcome of a kind moves up by one, and no other moves. -/
def Counts (figure : Summary → Nat) (kind : Outcome → Bool) : Prop :=
  ∀ s outcome latency, Tidy s.statusCounts →
    figure (s.record outcome latency) = figure s + (kind outcome).toNat

theorem eq_skipped {outcome : Outcome} (h : outcome.isSent = false) : outcome = .skipped := by
  cases outcome with
  | skipped => rfl
  | success status => cases h
  | failure status body => cases h

theorem record_sent (s : Summary) {outcome : Outcome} (h : outcome.isSent = true) (latency : Duration) :
    (s.record outcome latency).requests = s.requests + 1 ∧
      (s.record outcome latency).latencies = millisOf latency :: s.latencies := by
  rcases outcome with _ | ⟨_ | _, _⟩ | _
  · exact ⟨rfl, rfl⟩
  · exact ⟨rfl, rfl⟩
  · exact ⟨rfl, rfl⟩
  · cases h

theorem new_tidy (users : Nat) : Tidy (new users).statusCounts :=
  ⟨.nil, fun _ h => absurd h List.not_mem_nil⟩

theorem record_tidy {s : Summary} (h : Tidy s.statusCounts) (outcome : Outcome) (latency : Duration) :
    Tidy (s.record outcome latency).statusCounts := by
  cases outcome with
  | success status => exact h.countStatus status
  | skipped => exact h
  | failure status body =>
    cases status with
    | none => exact h
    | some status => exact h.countStatus status

theorem recordAll_tidy (records : List (Outcome × Duration)) : ∀ {s : Summary},
    Tidy s.statusCounts → Tidy (s.recordAll records).statusCounts := by
  induction records with
  | nil =>
    intro s h
    exact h
  | cons r records ih =>
    intro s h
    exact ih (record_tidy h r.1 r.2)

/-- A figure is the number of the records that it counts. -/
theorem Counts.recordAll {figure : Summary → Nat} {kind : Outcome → Bool} (h : Counts figure kind)
    (records : List (Outcome × Duration)) : ∀ {s : Summary}, Tidy s.statusCounts →
      figure (s.recordAll records) = figure s + (records.map Prod.fst).countP kind := by
  induction records with
  | nil =>
    intro s _
    rfl
  | cons r records ih =>
    intro s hs
    have hlater : figure (s.recordAll (r :: records)) =
        figure (s.record r.1 r.2) + (records.map Prod.fst).countP kind := ih (record_tidy hs r.1 r.2)
    rw [hlater, h s r.1 r.2 hs, List.map_cons, List.countP_cons]
    cases kind r.1 <;> simp [Nat.add_comm, Nat.add_assoc]

theorem counts_requests : Counts requests Outcome.isSent := by
  rintro s (_ | ⟨_ | _, _⟩ | _) latency - <;> rfl

theorem counts_successes : Counts successes Outcome.isSuccess := by
  rintro s (_ | ⟨_ | _, _⟩ | _) latency - <;> rfl

theorem counts_failures : Counts failures fun outcome => outcome.isSent && !outcome.isSuccess := by
  rintro s (_ | ⟨_ | _, _⟩ | _) latency - <;> rfl

theorem counts_transportFailures :
    Counts transportFailures fun outcome => outcome.isSent && outcome.status?.isNone := by
  rintro s (_ | ⟨_ | _, _⟩ | _) latency - <;> rfl

theorem counts_skipped : Counts skipped fun outcome => !outcome.isSent := by
  rintro s (_ | ⟨_ | _, _⟩ | _) latency - <;> rfl

theorem counts_status (status : Nat) :
    Counts (fun s => countOf status s.statusCounts) fun outcome => outcome.status? = some status := by
  have hcount : ∀ counted, (if counted = status then 1 else 0) =
      (decide (some counted = some status)).toNat := by
    intro counted
    by_cases h : counted = status <;> simp [h]
  rintro s (counted | ⟨_ | counted, _⟩ | _) latency hs
  · exact (countOf_countStatus status counted hs).trans (by rw [hcount]; rfl)
  · simp [Summary.record, recordSent, Outcome.status?]
  · exact (countOf_countStatus status counted hs).trans (by rw [hcount]; rfl)
  · simp [Summary.record, Outcome.status?]

theorem counts_statuses :
    Counts (fun s => (s.statusCounts.map Prod.snd).sum) fun outcome => outcome.status?.isSome := by
  rintro s (counted | ⟨_ | counted, _⟩ | _) latency -
  · exact sum_countStatus counted s.statusCounts
  · rfl
  · exact sum_countStatus counted s.statusCounts
  · rfl

/-- Two figures that count apart from each other count together. -/
theorem Counts.add {figure other : Summary → Nat} {kind kind' both : Outcome → Bool}
    (h : Counts figure kind) (h' : Counts other kind')
    (hb : ∀ outcome, (both outcome).toNat = (kind outcome).toNat + (kind' outcome).toNat) :
    Counts (fun s => figure s + other s) both := by
  intro s outcome latency hs
  dsimp only
  rw [h s outcome latency hs, h' s outcome latency hs, hb outcome]
  omega

/-- What is sent succeeds or fails. -/
theorem counts_parts : Counts (fun s => s.successes + s.failures) Outcome.isSent := by
  apply counts_successes.add counts_failures
  rintro (_ | _ | _) <;> rfl

/-- What is sent comes back with a status or is lost. -/
theorem counts_answered :
    Counts (fun s => (s.statusCounts.map Prod.snd).sum + s.transportFailures) Outcome.isSent := by
  apply counts_statuses.add counts_transportFailures
  rintro (_ | ⟨_ | _, _⟩ | _) <;> rfl

/-! ## What is derived -/

/-- A summary with all its figures derived, whatever the sum of the latencies. -/
def derived (s : Summary) (elapsed : Duration) : Summary :=
  { s.timed elapsed with
    averageMillis :=
      if s.latencies = [] then s.averageMillis else s.latencies.sum / s.latencies.length
    p95Millis := s.latencies.mergeSort[p95Index s.latencies.length]?.getD s.p95Millis
    latencies := s.latencies.mergeSort }

theorem average_eq (latencies : List Nat) : average latencies =
    if latencies.sum < 2 ^ 64 then .ok (latencies.sum / latencies.length) else .error .sumOverflow := by
  rw [List.sum_eq_foldr, average, Nat.pow_eq]

/-- A run is summed up exactly where 64 bits hold the sum of its latencies. -/
theorem finish_eq (s : Summary) (elapsed : Duration) : s.finish elapsed =
    if s.latencies.sum < 2 ^ 64 then .ok (s.derived elapsed) else .error .sumOverflow := by
  unfold finish
  cases hl : s.latencies with
  | nil =>
    have hderived : s.derived elapsed = s.timed elapsed := by simp [derived, timed, hl]
    rw [hderived]
    rfl
  | cons first rest =>
    have hne : s.latencies ≠ [] := by rw [hl]; exact List.cons_ne_nil first rest
    rw [← hl, if_neg (by simpa using hne), average_eq]
    by_cases hs : s.latencies.sum < 2 ^ 64
    · rw [if_pos hs, if_pos hs]
      unfold derived
      rw [if_neg hne, ← List.length_mergeSort s.latencies]
      rfl
    · rw [if_neg hs, if_neg hs]
      rfl

theorem finish_eq_ok_iff {s t : Summary} {elapsed : Duration} :
    s.finish elapsed = .ok t ↔ s.latencies.sum < 2 ^ 64 ∧ t = s.derived elapsed := by
  rw [finish_eq]
  by_cases hs : s.latencies.sum < 2 ^ 64
  · rw [if_pos hs]
    exact ⟨fun h => ⟨hs, (Except.ok.inj h).symm⟩, fun h => congrArg _ h.2.symm⟩
  · rw [if_neg hs]
    exact ⟨nofun, fun h => absurd h.1 hs⟩

theorem eq_derived {s t : Summary} {elapsed : Duration} (h : s.finish elapsed = .ok t) :
    t = s.derived elapsed := (finish_eq_ok_iff.1 h).2

end LunchRush.Summary
