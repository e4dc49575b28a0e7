import LunchRush.Proofs.Load.Derived
/-!
# Summaries without an order

Users record as they end their orders, in whatever order that happens, and a summary may be finished
in between. Two summaries are alike when they count alike and hold the same latencies in some order
(`Alike`); records keep them alike, and a summary that is finished stays like itself. So what a run
comes to depends on which attempts were recorded and on nothing else
(`finish_of_same_attempts`).
-/

namespace LunchRush.Summary

/-! ## What is entered -/

/-- What is done with a summary. -/
inductive Entry where
  | attempt (outcome : Outcome) (latency : Duration)
  | finish (elapsed : Duration)
deriving DecidableEq

/-- The attempt that an entry records. -/
def Entry.attempt? : Entry → Option (Outcome × Duration)
  | .attempt outcome latency => some (outcome, latency)
  | .finish _ => none

/-- What an entry leaves. A summary that cannot be finished keeps the figures that need no latencies. -/
def enter (s : Summary) : Entry → Summary
  | .attempt outcome latency => s.record outcome latency
  | .finish elapsed =>
    match s.finish elapsed with
    | .ok finished => finished
    | .error _ => s.timed elapsed

theorem enter_finish (s : Summary) (elapsed : Duration) : s.enter (.finish elapsed) =
    if s.latencies.sum < 2 ^ 64 then s.derived elapsed else s.timed elapsed := by
  have hf := finish_eq s elapsed
  by_cases hs : s.latencies.sum < 2 ^ 64
  · rw [if_pos hs] at hf ⊢
    simp only [enter, hf]
  · rw [if_neg hs] at hf ⊢
    simp only [enter, hf]

/-- The summary after some entries. -/
def after (s : Summary) (entries : List Entry) : Summary := entries.foldl enter s

/-- The attempts that some entries record, in order. -/
def attemptsIn (entries : List Entry) : List (Outcome × Duration) := entries.filterMap Entry.attempt?

/-! ## Sums of a summary -/

/-- What is sent succeeds or fails and keeps its latency; what is lost fails, and what is not lost
has a status. -/
structure Balanced (s : Summary) : Prop where
  parts : s.requests = s.successes + s.failures
  kept : s.latencies.length = s.requests
  lost : s.transportFailures ≤ s.failures
  answered : (s.statusCounts.map Prod.snd).sum + s.transportFailures = s.requests

theorem new_balanced (users : Nat) : (new users).Balanced := ⟨rfl, rfl, Nat.le_refl _, rfl⟩

theorem Balanced.record {s : Summary} (h : s.Balanced) (outcome : Outcome) (latency : Duration) :
    (s.record outcome latency).Balanced := by
  obtain ⟨hparts, hkept, hlost, hanswered⟩ := h
  rcases outcome with status | ⟨_ | status, body⟩ | _
  · have hsum := sum_countStatus status s.statusCounts
    constructor <;> simp only [Summary.record, recordSent, Option.elim, List.length_cons] <;> omega
  · constructor <;> simp only [Summary.record, recordSent, Option.elim, List.length_cons] <;> omega
  · have hsum := sum_countStatus status s.statusCounts
    constructor <;> simp only [Summary.record, recordSent, Option.elim, List.length_cons] <;> omega
  · exact ⟨hparts, hkept, hlost, hanswered⟩

theorem Balanced.enter_finish {s : Summary} (h : s.Balanced) (elapsed : Duration) :
    (s.enter (.finish elapsed)).Balanced := by
  rw [Summary.enter_finish]
  split
  · exact ⟨h.parts, (List.length_mergeSort _).trans h.kept, h.lost, h.answered⟩
  · exact ⟨h.parts, h.kept, h.lost, h.answered⟩

theorem Balanced.after {s : Summary} (h : s.Balanced) (entries : List Entry) :
    (s.after entries).Balanced := by
  induction entries generalizing s with
  | nil => exact h
  | cons entry entries ih =>
    cases entry with
    | attempt outcome latency => exact ih (h.record outcome latency)
    | finish elapsed => exact ih (h.enter_finish elapsed)

/-! ## Alike summaries -/

/-- A summary with its counts alone. -/
def counts (s : Summary) : Summary :=
  { s with elapsedMillis := 0, averageMillis := 0, p95Millis := 0, errorRate := 0.0, latencies := [] }

/-- The same counts, and the same latencies in some order. The figures that are derived from these
have to agree only where there is nothing to derive them from. -/
structure Alike (s t : Summary) : Prop where
  counts : s.counts = t.counts
  latencies : s.latencies.Perm t.latencies
  errorRate : s.requests = 0 → s.errorRate = t.errorRate
  averageMillis : s.latencies = [] → s.averageMillis = t.averageMillis
  p95Millis : s.latencies = [] → s.p95Millis = t.p95Millis

theorem Alike.refl (s : Summary) : Alike s s := ⟨rfl, .refl _, fun _ => rfl, fun _ => rfl, fun _ => rfl⟩

theorem Alike.requests {s t : Summary} (h : Alike s t) : s.requests = t.requests := by
  have hr := congrArg Summary.requests h.counts
  exact hr

theorem Alike.nil_iff {s t : Summary} (h : Alike s t) : s.latencies = [] ↔ t.latencies = [] := by
  rw [← List.length_eq_zero_iff, h.latencies.length_eq, List.length_eq_zero_iff]

theorem Alike.trans {s t u : Summary} (h : Alike s t) (h' : Alike t u) : Alike s u where
  counts := h.counts.trans h'.counts
  latencies := h.latencies.trans h'.latencies
  errorRate hr := (h.errorRate hr).trans (h'.errorRate (h.requests ▸ hr))
  averageMillis hl := (h.averageMillis hl).trans (h'.averageMillis (h.nil_iff.1 hl))
  p95Millis hl := (h.p95Millis hl).trans (h'.p95Millis (h.nil_iff.1 hl))

theorem counts_record (s : Summary) (outcome : Outcome) (latency : Duration) :
    (s.record outcome latency).counts = (s.counts.record outcome latency).counts := by
  rcases outcome with _ | ⟨_ | _, _⟩ | _ <;> rfl

/-- Where something was sent nothing else has to agree. -/
theorem alike_of_sent {s t : Summary} (hc : s.counts = t.counts) (hl : s.latencies.Perm t.latencies)
    (hr : s.requests ≠ 0) (hn : s.latencies ≠ []) : Alike s t :=
  ⟨hc, hl, fun h => absurd h hr, fun h => absurd h hn, fun h => absurd h hn⟩

/-- The same attempt keeps two summaries alike. -/
theorem Alike.record {s t : Summary} (h : Alike s t) (outcome : Outcome) (latency : Duration) :
    Alike (s.record outcome latency) (t.record outcome latency) := by
  have hcounts : (s.record outcome latency).counts = (t.record outcome latency).counts := by
    rw [counts_record, counts_record t, h.counts]
  cases hs : outcome.isSent with
  | true =>
    obtain ⟨hr, hl⟩ := record_sent s hs latency
    obtain ⟨-, hl'⟩ := record_sent t hs latency
    refine alike_of_sent hcounts ?_ (by omega) (by simp [hl])
    rw [hl, hl']
    exact h.latencies.cons _
  | false =>
    rw [eq_skipped hs] at hcounts ⊢
    exact ⟨hcounts, h.latencies, h.errorRate, h.averageMillis, h.p95Millis⟩

theorem Alike.recordAll {s t : Summary} (h : Alike s t) (records : List (Outcome × Duration)) :
    Alike (s.recordAll records) (t.recordAll records) := by
  induction records generalizing s t with
  | nil => exact h
  | cons r records ih => exact ih (h.record r.1 r.2)

/-! ## The order of attempts -/

theorem countStatus_comm (a b : Nat) (counts : List (Nat × Nat)) :
    countStatus a (countStatus b counts) = countStatus b (countStatus a counts) := by
  induction counts with
  | nil => grind [countStatus]
  | cons first counts ih => grind [countStatus]

theorem record_skipped_comm (s : Summary) (outcome : Outcome) (latency skipped : Duration) :
    (s.record .skipped skipped).record outcome latency =
      (s.record outcome latency).record .skipped skipped := by
  rcases outcome with _ | ⟨_ | _, _⟩ | _ <;> rfl

theorem counts_record_comm (s : Summary) (a b : Outcome × Duration) :
    ((s.record a.1 a.2).record b.1 b.2).counts = ((s.record b.1 b.2).record a.1 a.2).counts := by
  obtain ⟨_ | ⟨_ | _, _⟩ | _, _⟩ := a <;> obtain ⟨_ | ⟨_ | _, _⟩ | _, _⟩ := b <;>
    simp [counts, Summary.record, recordSent, countStatus_comm]

/-- Two attempts may be recorded in either order. -/
theorem alike_record_swap (s : Summary) (a b : Outcome × Duration) :
    Alike ((s.record a.1 a.2).record b.1 b.2) ((s.record b.1 b.2).record a.1 a.2) := by
  cases ha : a.1.isSent with
  | false =>
    rw [eq_skipped ha, record_skipped_comm]
    exact .refl _
  | true =>
    cases hb : b.1.isSent with
    | false =>
      rw [eq_skipped hb, record_skipped_comm]
      exact .refl _
    | true =>
      obtain ⟨-, hla⟩ := record_sent s ha a.2
      obtain ⟨-, hlb⟩ := record_sent s hb b.2
      obtain ⟨hr, hl⟩ := record_sent (s.record a.1 a.2) hb b.2
      obtain ⟨-, hl'⟩ := record_sent (s.record b.1 b.2) ha a.2
      refine alike_of_sent (counts_record_comm s a b) ?_ (by omega) (by simp [hl])
      rw [hl, hla, hl', hlb]
      exact .swap _ _ _

theorem alike_of_perm {records records' : List (Outcome × Duration)} (h : records.Perm records')
    (s : Summary) : Alike (s.recordAll records) (s.recordAll records') := by
  induction h generalizing s with
  | nil => exact .refl _
  | cons r _ ih => exact ih _
  | swap a b records => exact (alike_record_swap s b a).recordAll records
  | trans _ _ ih ih' => exact (ih s).trans (ih' s)

/-! ## Finishing -/

theorem derived_alike (s : Summary) (elapsed : Duration) : Alike (s.derived elapsed) s where
  counts := rfl
  latencies := List.mergeSort_perm ..
  errorRate hr := if_pos hr
  averageMillis hl := by
    have hn : s.latencies = [] := List.nil_perm.1 (hl ▸ List.mergeSort_perm ..)
    exact if_pos hn
  p95Millis hl := by
    have hn : s.latencies.mergeSort = [] := hl
    simp only [derived, hn]
    rfl

theorem enter_finish_alike (s : Summary) (elapsed : Duration) : Alike (s.enter (.finish elapsed)) s := by
  rw [enter_finish]
  split
  · exact derived_alike s elapsed
  · exact ⟨rfl, .refl _, fun hr => if_pos hr, fun _ => rfl, fun _ => rfl⟩

/-- A summary that is finished in between is like one that is not. -/
theorem Alike.after {s t : Summary} (h : Alike s t) (entries : List Entry) :
    Alike (s.after entries) (t.recordAll (attemptsIn entries)) := by
  induction entries generalizing s t with
  | nil => exact h
  | cons entry entries ih =>
    cases entry with
    | attempt outcome latency => exact ih (h.record outcome latency)
    | finish elapsed => exact ih ((enter_finish_alike s elapsed).trans h)

theorem eq_of_counts {s t : Summary} (hc : s.counts = t.counts)
    (he : s.elapsedMillis = t.elapsedMillis) (ha : s.averageMillis = t.averageMillis)
    (hp : s.p95Millis = t.p95Millis) (hr : s.errorRate = t.errorRate)
    (hl : s.latencies = t.latencies) : s = t := by
  cases s
  cases t
  simp_all [counts]

theorem Alike.derived_eq {s t : Summary} (h : Alike s t) (elapsed : Duration) :
    s.derived elapsed = t.derived elapsed := by
  have hsorted := mergeSort_eq_of_perm h.latencies
  have hlength := h.latencies.length_eq
  have hfailures := congrArg Summary.failures h.counts
  refine eq_of_counts h.counts rfl ?average ?p95 ?rate hsorted
  case average =>
    simp only [derived, h.nil_iff, h.latencies.sum_eq, hlength]
    split
    · rename_i hn
      exact h.averageMillis (h.nil_iff.2 hn)
    · rfl
  case p95 =>
    simp only [derived, hsorted, hlength]
    cases hn : t.latencies with
    | nil =>
      rw [List.mergeSort_nil]
      exact h.p95Millis (h.nil_iff.2 hn)
    | cons first rest =>
      have hlt : p95Index (first :: rest).length < (first :: rest).mergeSort.length := by
        rw [List.length_mergeSort]
        exact p95Index_lt (List.length_pos_of_ne_nil (List.cons_ne_nil first rest))
      rw [List.getElem?_eq_getElem hlt]
      rfl
  case rate =>
    simp only [derived, timed, h.requests]
    split
    · rename_i hr
      exact h.errorRate (h.requests ▸ hr)
    · exact congrArg (rate · _) hfailures

/-- Alike summaries come to the same. -/
theorem Alike.finish_eq {s t : Summary} (h : Alike s t) (elapsed : Duration) :
    s.finish elapsed = t.finish elapsed := by
  rw [Summary.finish_eq, Summary.finish_eq, h.derived_eq, h.latencies.sum_eq]

theorem finish_eq_of_perm {users : Nat} {entries entries' : List Entry}
    (h : (attemptsIn entries).Perm (attemptsIn entries')) (elapsed : Duration) :
    ((new users).after entries).finish elapsed = ((new users).after entries').finish elapsed := by
  have ha := (Alike.refl (new users)).after entries
  have ha' := (Alike.refl (new users)).after entries'
  rw [(ha.trans (alike_of_perm h _)).finish_eq, ha'.finish_eq]

/-- Finishing what is finished changes nothing, and is no other fault. -/
theorem finish_again (s : Summary) (elapsed : Duration) :
    (s.finish elapsed >>= fun finished => finished.finish elapsed) = s.finish elapsed := by
  cases h : s.finish elapsed with
  | error fault => rfl
  | ok finished =>
    obtain rfl := eq_derived h
    exact ((derived_alike s elapsed).finish_eq elapsed).trans h

/-- Whatever is entered: after every entry the figures add up. Finishing twice in the same time is
finishing once. And any other entries that record the same attempts, in whatever order and finished
in between or not, come to the same summary, or to none as well. -/
theorem finish_of_same_attempts (users : Nat) (entries entries' : List Entry)
    (h : (attemptsIn entries).Perm (attemptsIn entries')) (elapsed : Duration) :
    (∀ count, ((new users).after (entries.take count)).Balanced) ∧
      (((new users).after entries).finish elapsed >>= fun finished => finished.finish elapsed) =
        ((new users).after entries).finish elapsed ∧
      ((new users).after entries).finish elapsed = ((new users).after entries').finish elapsed :=
  ⟨fun _ => (new_balanced users).after _, finish_again _ elapsed, finish_eq_of_perm h elapsed⟩

/-- Two orders of which one is answered, a turn that is skipped, and a summary in between. -/
def mixed : List Entry :=
  [.attempt (.success 201) (.ofMillis 10), .finish (.ofSecs 1), .attempt .skipped .zero,
    .attempt (.failure none "") (.ofMillis 40)]

theorem finish_of_same_attempts_mixed :
    (attemptsIn mixed).Perm (attemptsIn mixed.reverse) ∧
      ((new 2).after mixed).finish (.ofSecs 2) = ((new 2).after mixed.reverse).finish (.ofSecs 2) ∧
      ((new 2).after mixed).requests = 2 := by
  have h : (attemptsIn mixed).Perm (attemptsIn mixed.reverse) := by decide
  exact ⟨h, (finish_of_same_attempts 2 mixed mixed.reverse h (.ofSecs 2)).2.2, rfl⟩

end LunchRush.Summary
