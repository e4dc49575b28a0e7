import LunchRush.Proofs.Load.Summary
import LunchRush.Proofs.Random.Real
/-!
# Budgets

The gate compares the error rate and the percentile of a finished run with their budgets. Both
counts of the rate are rounded to floats before they are divided, and the quotient is rounded again;
it is a rate all the same, from zero, which it is only where no order failed, to one
(`isRate_rate`). A budget that is a number is kept where the rate is at most the budget, and one
that is not a number is exceeded by no rate (`budgets_kept`).
-/

namespace LunchRush.Summary

open LunchRush.Number

/-! ## The gate -/

/-- A rate keeps a budget that it is not above. -/
def KeepsRate (rate : Float) (budget : Option Float) : Prop :=
  ∀ b, budget = some b → rate ≤ b ∨ b.isNaN = true

/-- A percentile keeps a budget that it is not above. -/
def KeepsP95 (p95 : Nat) (budget : Option Nat) : Prop := ∀ b, budget = some b → p95 ≤ b

theorem filter_eq_none_iff {α : Type} (p : α → Bool) (o : Option α) :
    o.filter p = none ↔ ∀ b, o = some b → p b = false := by
  cases o <;> simp [Option.filter]

/-- What is not a number is above nothing. -/
theorem not_lt_of_isNaN {x b : Float} (h : b.isNaN = true) : ¬ b < x := by
  rw [eq_nan h, lt_iff_unpack]
  rw [show nan.toModel.unpack = .notANumber by rfl]
  exact Bool.false_ne_true

theorem keepsRate_iff {rate : Float} (hr : rate.isNaN = false) (budget : Option Float) :
    budget.filter (· < rate) = none ↔ KeepsRate rate budget := by
  rw [filter_eq_none_iff]
  refine forall₂_congr fun b _ => ?_
  rw [decide_eq_false_iff_not]
  cases hb : b.isNaN with
  | true => simp [not_lt_of_isNaN hb]
  | false => simp [le_iff_not_lt hr hb]

theorem keepsP95_iff (p95 : Nat) (budget : Option Nat) :
    budget.filter (· < p95) = none ↔ KeepsP95 p95 budget := by
  rw [filter_eq_none_iff]
  refine forall₂_congr fun b _ => ?_
  rw [decide_eq_false_iff_not, Nat.not_lt]

theorem checkBudgets_eq_ok_iff {s : Summary} (hr : s.errorRate.isNaN = false)
    (maxErrorRate : Option Float) (maxP95 : Option Nat) :
    s.checkBudgets maxErrorRate maxP95 = .ok () ↔
      KeepsRate s.errorRate maxErrorRate ∧ KeepsP95 s.p95Millis maxP95 := by
  rw [← keepsRate_iff hr, ← keepsP95_iff, checkBudgets]
  split
  · rename_i hb
    simp [hb]
  · rename_i hb hp
    simp [hb, hp]
  · rename_i hb hp
    simp [hb, hp]

/-! ## The rate -/

/-- A share of `part` in `whole` as a float. -/
structure IsRate (part whole : Nat) (rate : Float) : Prop where
  nonneg : 0 ≤ rate
  le_one : rate ≤ 1
  eq_zero_iff : rate = 0 ↔ part = 0
  /-- Below 2^53 both counts are floats, and the quotient is rounded once. -/
  rounded : 0 < whole → whole < 2 ^ 53 →
    ∃ place, rate = ofSteps false place ∧ Rounds (part / whole) place

theorem zero_ofSteps : (0 : Float) = ofSteps false 0 := by decide +kernel

theorem one_ofSteps : (1 : Float) = ofSteps false (1023 * 2 ^ 52) := by decide +kernel

/-- The float of a count that 64 bits hold. It is no less than one unless the count is zero. -/
theorem exists_ofNat {n : Nat} (h : n < 2 ^ 64) : ∃ place, ofNat n = ofSteps false place ∧
    place < infinitySteps ∧ Rounds n place ∧ (0 < n → 1 ≤ valueAt place) ∧ valueAt place ≤ 2 ^ 64 := by
  obtain ⟨place, hp, hr⟩ := ofNat_ofSteps n
  have hlt : (n : ℚ) < 2 ^ 64 := by exact_mod_cast h
  have htop : valueAt (1087 * 2 ^ 52) = 2 ^ 64 := valueAt_two_pow 64
  have hle : place ≤ 1087 * 2 ^ 52 := hr.le_place (by rw [htop]; exact hlt.le)
  refine ⟨place, hp, ?_, hr, ?_, ?_⟩
  · unfold infinitySteps
    omega
  · intro hpos
    rw [← Random.valueAt_one]
    refine valueAt_mono (hr.place_le ?_)
    rw [Random.valueAt_one]
    exact_mod_cast hpos
  · rw [← htop]
    exact valueAt_mono hle

theorem isRate_zero : IsRate 0 0 0 where
  nonneg := by decide +kernel
  le_one := by decide +kernel
  eq_zero_iff := by simp
  rounded := fun h => absurd h (Nat.lt_irrefl 0)

/-- The least float is far below the quotient of counts. -/
theorem valueAt_least_le : valueAt 1 ≤ 1 / 2 ^ 64 := by
  have hvalue : valueAt 1 = 1 / 2 ^ 1074 := by norm_num [valueAt, mantissaAt, doublings, ulp]
  rw [hvalue]
  gcongr <;> norm_num

/-- Where a rate stands: the part and the whole are rounded, and so is their quotient. -/
structure RateAt (part whole n k place : Nat) : Prop where
  part_rounds : Rounds part n
  whole_rounds : Rounds whole k
  one_le_part : 0 < part → 1 ≤ valueAt n
  one_le_whole : 1 ≤ valueAt k
  whole_le : valueAt k ≤ 2 ^ 64
  place_rounds : Rounds (valueAt n / valueAt k) place

theorem exists_rateAt {part whole : Nat} (hle : part ≤ whole) (hpos : 0 < whole)
    (h : whole < 2 ^ 64) :
    ∃ n k place, rate part whole = ofSteps false place ∧ RateAt part whole n k place := by
  obtain ⟨n, hn, hnfin, hnr, hnone, -⟩ := exists_ofNat (Nat.lt_of_le_of_lt hle h)
  obtain ⟨k, hk, hkfin, hkr, hkone, hktop⟩ := exists_ofNat h
  have hkval : 1 ≤ valueAt k := hkone hpos
  have hkpos : 0 < k := by
    rw [Nat.pos_iff_ne_zero]
    rintro rfl
    rw [valueAt_zero] at hkval
    exact absurd hkval (by norm_num)
  obtain ⟨place, hp, hr⟩ := div_ofSteps hnfin hkfin hkpos
  exact ⟨n, k, place, by rw [rate, hn, hk, hp], hnr, hkr, hnone, hkval, hktop, hr⟩

namespace RateAt

variable {part whole n k place : Nat}

/-- Rounding does not change the order of the counts. -/
theorem place_le (h : RateAt part whole n k place) (hle : part ≤ whole) : place ≤ 1023 * 2 ^ 52 := by
  refine h.place_rounds.le_place ?_
  rw [Random.valueAt_one, div_le_one (by linarith [h.one_le_whole])]
  exact valueAt_mono (h.part_rounds.le_of_le h.whole_rounds (by exact_mod_cast hle))

/-- No quotient of counts is small enough to be rounded to zero. -/
theorem place_eq_zero_iff (h : RateAt part whole n k place) : place = 0 ↔ part = 0 := by
  constructor
  · rintro rfl
    by_contra hne
    have hleast : valueAt 1 ≤ valueAt n / valueAt k := by
      refine valueAt_least_le.trans ?_
      rw [div_le_div_iff₀ (by norm_num) (by linarith [h.one_le_whole])]
      linarith [h.one_le_part (Nat.pos_of_ne_zero hne), h.whole_le]
    exact absurd (h.place_rounds.place_le hleast) (by decide)
  · rintro rfl
    have hn := h.part_rounds
    have hr := h.place_rounds
    rw [Nat.cast_zero] at hn
    rw [hn.unique rounds_zero, valueAt_zero, zero_div] at hr
    exact hr.unique rounds_zero

end RateAt

theorem isRate_rate {part whole : Nat} (hle : part ≤ whole) (hpos : 0 < whole) (h : whole < 2 ^ 64) :
    IsRate part whole (rate part whole) := by
  obtain ⟨n, k, place, hrate, hat⟩ := exists_rateAt hle hpos h
  have hone := hat.place_le hle
  rw [hrate]
  constructor
  · rw [zero_ofSteps, le_ofSteps_iff]
    omega
  · rw [one_ofSteps, le_ofSteps_iff]
    omega
  · rw [zero_ofSteps, ← hat.place_eq_zero_iff]
    refine ⟨ofSteps_inj ?_ (Nat.zero_le _), fun h => by rw [h]⟩
    unfold infinitySteps
    omega
  · intro _ hshort
    have hr := hat.place_rounds
    rw [hat.part_rounds.exact (hle.trans hshort.le), hat.whole_rounds.exact hshort.le] at hr
    exact ⟨place, rfl, hr⟩

/-! ## Finished runs -/

/-- The orders of a run that went out. -/
def sentCount (records : List (Outcome × Duration)) : Nat :=
  (records.map Prod.fst).countP Outcome.isSent

/-- The orders of a run that went out and failed. -/
def failedCount (records : List (Outcome × Duration)) : Nat :=
  (records.map Prod.fst).countP fun outcome => outcome.isSent && !outcome.isSuccess

theorem failedCount_le (records : List (Outcome × Duration)) :
    failedCount records ≤ sentCount records := by
  apply List.countP_mono_left
  intro outcome _ h
  exact (Bool.and_eq_true_iff.1 h).1

theorem recordAll_errorRate (records : List (Outcome × Duration)) (s : Summary) :
    (s.recordAll records).errorRate = s.errorRate := by
  induction records generalizing s with
  | nil => rfl
  | cons r records ih =>
    refine (ih (s.record r.1 r.2)).trans ?_
    rcases r.1 with _ | ⟨_ | _, _⟩ | _ <;> rfl

theorem derived_counts (users : Nat) (records : List (Outcome × Duration)) (elapsed : Duration) :
    (((new users).recordAll records).derived elapsed).requests = sentCount records ∧
      (((new users).recordAll records).derived elapsed).failures = failedCount records := by
  have hrequests := counts_requests.recordAll records (new_tidy users)
  have hfailures := counts_failures.recordAll records (new_tidy users)
  constructor
  · exact hrequests.trans (Nat.zero_add _)
  · exact hfailures.trans (Nat.zero_add _)

/-- The rate of a finished run is that of the orders that went out, and zero if none did. -/
theorem derived_errorRate (users : Nat) (records : List (Outcome × Duration)) (elapsed : Duration) :
    (((new users).recordAll records).derived elapsed).errorRate =
      if sentCount records = 0 then 0 else rate (failedCount records) (sentCount records) := by
  obtain ⟨hrequests, hfailures⟩ := derived_counts users records elapsed
  have hzero : ((new users).recordAll records).errorRate = 0 := by
    rw [recordAll_errorRate]
    change (0.0 : Float) = 0
    decide +kernel
  rw [← hrequests, ← hfailures, ← hzero]
  rfl

theorem isRate_derived (users : Nat) {records : List (Outcome × Duration)} (elapsed : Duration)
    (h : sentCount records < 2 ^ 64) :
    IsRate (failedCount records) (sentCount records)
      (((new users).recordAll records).derived elapsed).errorRate := by
  have hle := failedCount_le records
  rw [derived_errorRate]
  by_cases hz : sentCount records = 0
  · rw [if_pos hz, hz, Nat.le_zero.1 (hz ▸ hle : failedCount records ≤ 0)]
    exact isRate_zero
  · rw [if_neg hz]
    exact isRate_rate hle (Nat.pos_of_ne_zero hz) h

theorem IsRate.isNaN_eq_false {part whole : Nat} {rate : Float} (h : IsRate part whole rate) :
    rate.isNaN = false := by
  rw [← Bool.not_eq_true]
  intro hn
  have hle := h.nonneg
  rw [eq_nan hn] at hle
  exact absurd hle (by decide +kernel)

/-- The gate is sound for every run that was summed up and sent no more orders than 64 bits count, and for
all budgets: it lets a run pass where the error rate is at most a budget that is a number and the
percentile is at most its own. A budget that is not a number is exceeded by no rate. The rate is
that of the orders that failed among those that went out, and the counters are their numbers. -/
theorem budgets_kept (users : Nat) (records : List (Outcome × Duration)) (elapsed : Duration)
    (s : Summary) (maxErrorRate : Option Float) (maxP95 : Option Nat) (h : sentCount records < 2 ^ 64)
    (hs : ((new users).recordAll records).finish elapsed = .ok s) :
    (s.checkBudgets maxErrorRate maxP95 = .ok () ↔
      KeepsRate s.errorRate maxErrorRate ∧ KeepsP95 s.p95Millis maxP95) ∧
    s.requests = sentCount records ∧ s.failures = failedCount records ∧
    IsRate s.failures s.requests s.errorRate := by
  rw [eq_derived hs]
  obtain ⟨hrequests, hfailures⟩ := derived_counts users records elapsed
  have hrate := isRate_derived users elapsed h
  refine ⟨checkBudgets_eq_ok_iff hrate.isNaN_eq_false maxErrorRate maxP95, hrequests, hfailures, ?_⟩
  rw [hrequests, hfailures]
  exact hrate

/-- One of two orders fails, and a third is not sent. -/
def halfFailing : List (Outcome × Duration) :=
  [(.success 201, .ofMillis 10), (.skipped, .ofSecs 5), (.failure (some 500) "", .ofMillis 41)]

theorem budgets_kept_half :
    sentCount halfFailing < 2 ^ 64 ∧
      ∃ s, ((new 2).recordAll halfFailing).finish (.ofSecs 1) = .ok s ∧
        IsRate 1 2 s.errorRate ∧ s.checkBudgets (some 1) none = .ok () ∧
        s.checkBudgets (some 0.4) none ≠ .ok () := by
  have hsent : sentCount halfFailing < 2 ^ 64 := by decide
  have hs : ((new 2).recordAll halfFailing).finish (.ofSecs 1) =
      .ok (((new 2).recordAll halfFailing).derived (.ofSecs 1)) := by
    rw [finish_eq]
    exact if_pos (by decide)
  obtain ⟨hone, -, -, hrate⟩ := budgets_kept 2 halfFailing (.ofSecs 1) _ (some 1) none hsent hs
  have hlow := (budgets_kept 2 halfFailing (.ofSecs 1) _ (some 0.4) none hsent hs).1
  refine ⟨hsent, _, hs, hrate, hone.2 ⟨?_, nofun⟩, fun hok => ?_⟩
  · rintro b ⟨⟩
    exact .inl hrate.le_one
  · rcases (hlow.1 hok).1 0.4 rfl with hle | hnan
    · exact absurd hle (by decide +kernel)
    · exact absurd hnan (by decide +kernel)

/-- No order succeeds, and the gate lets the run pass: the command line reads a budget that is not a
number, and the rate is not at most that. -/
theorem nan_budget_kept :
    floatOfChars? "NaN".toList = some nan ∧
      ∃ s, ((new 1).recordAll [(.failure (some 500) "", .ofMillis 300)]).finish (.ofSecs 1) = .ok s ∧
        s.checkBudgets (some nan) none = .ok () ∧ s.errorRate = 1 ∧ ¬ s.errorRate ≤ nan := by
  refine ⟨by decide +kernel, ((new 1).recordAll [(.failure (some 500) "", .ofMillis 300)]).derived
    (.ofSecs 1), ?_, rfl, by decide +kernel, by decide +kernel⟩
  rw [finish_eq]
  exact if_pos (by decide)

end LunchRush.Summary
