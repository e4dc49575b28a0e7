import LunchRush.Proofs.Load.Summary
import LunchRush.Proofs.Number.Arithmetic
/-!
# What is derived from latencies

The average of the latencies is the whole part of the exact one as long as their sum fits 64 bits,
and beyond that there is none (`average_exact_or_overflow`). The percentile is looked up at a place that is computed with
floats. The share is a little less than 95 of 100 and the product with it is rounded, but for fewer
than 2^48 latencies the whole number above it is the one above the exact product (`ceiling_share`),
so what is looked up has the rank that it should have (`p95_has_rank`).
-/

namespace LunchRush.Summary

open LunchRush.Number

/-- The latencies of the attempts that were sent, in whole milliseconds. -/
def sentMillis (records : List (Outcome × Duration)) : List Nat :=
  (records.filter fun r => r.1.isSent).map fun r => millisOf r.2

theorem recordAll_latencies (records : List (Outcome × Duration)) (s : Summary) :
    (s.recordAll records).latencies = (sentMillis records).reverse ++ s.latencies := by
  induction records generalizing s with
  | nil => rfl
  | cons r records ih =>
    have hlater : (s.recordAll (r :: records)).latencies =
        (sentMillis records).reverse ++ (s.record r.1 r.2).latencies := ih _
    rw [hlater]
    cases hs : r.1.isSent with
    | true =>
      rw [(record_sent s hs r.2).2]
      simp [sentMillis, hs]
    | false =>
      rw [eq_skipped hs]
      simp [sentMillis, hs, Summary.record]

/-- What is derived of a run's latencies is derived of those that were sent, in some order. -/
theorem latencies_perm (users : Nat) (records : List (Outcome × Duration)) :
    ((new users).recordAll records).latencies.Perm (sentMillis records) := by
  rw [recordAll_latencies]
  exact (List.append_nil _).symm ▸ List.reverse_perm _

theorem mergeSort_eq_of_perm {xs ys : List Nat} (h : xs.Perm ys) : xs.mergeSort = ys.mergeSort :=
  ((List.mergeSort_perm xs _).trans (h.trans (List.mergeSort_perm ys _).symm)).eq_of_pairwise'
    (List.pairwise_mergeSort' (· ≤ ·) xs) (List.pairwise_mergeSort' (· ≤ ·) ys)

/-! ## The average -/

theorem finish_recordAll (users : Nat) (records : List (Outcome × Duration)) (elapsed : Duration) :
    ((new users).recordAll records).finish elapsed = if (sentMillis records).sum < 2 ^ 64 then
      .ok (((new users).recordAll records).derived elapsed) else .error .sumOverflow := by
  rw [finish_eq, (latencies_perm users records).sum_eq]

theorem derived_average {records : List (Outcome × Duration)} (h : sentMillis records ≠ [])
    (users : Nat) (elapsed : Duration) :
    (((new users).recordAll records).derived elapsed).averageMillis =
      (sentMillis records).sum / (sentMillis records).length := by
  have hperm := latencies_perm users records
  have hne : ((new users).recordAll records).latencies ≠ [] := fun hn =>
    h (List.nil_perm.1 (hn ▸ hperm))
  rw [derived, if_neg hne, hperm.sum_eq, hperm.length_eq]

theorem exists_le_average {values : List Nat} (h : values ≠ []) :
    ∃ x ∈ values, x ≤ values.sum / values.length := by
  have hlt : (values.map id).sum < (values.map fun _ => values.sum / values.length + 1).sum := by
    rw [List.map_id, List.map_const', List.sum_replicate, smul_eq_mul]
    exact Nat.lt_mul_div_succ _ (List.length_pos_iff.2 h)
  obtain ⟨x, hx, hle⟩ := List.exists_lt_of_sum_lt _ _ hlt
  exact ⟨x, hx, Nat.le_of_lt_succ hle⟩

theorem exists_average_le {values : List Nat} (h : values ≠ []) :
    ∃ x ∈ values, values.sum / values.length ≤ x := by
  have hle : (values.map fun _ => values.sum / values.length).sum ≤ (values.map id).sum := by
    rw [List.map_id, List.map_const', List.sum_replicate, smul_eq_mul]
    exact Nat.mul_div_le ..
  exact List.exists_le_of_sum_le h _ _ hle

/-- The average of a run that sent something. Where the sum of the latencies fits 64 bits it is the
whole part of the exact average, and lies between the least latency and the greatest. Everywhere else
the program stops without one. -/
theorem average_exact_or_overflow (users : Nat) (records : List (Outcome × Duration)) (elapsed : Duration)
    (h : sentMillis records ≠ []) :
    ((sentMillis records).sum < 2 ^ 64 → ∃ s,
      ((new users).recordAll records).finish elapsed = .ok s ∧
      s.averageMillis = (sentMillis records).sum / (sentMillis records).length ∧
      (∃ least ∈ sentMillis records, least ≤ s.averageMillis) ∧
      ∃ greatest ∈ sentMillis records, s.averageMillis ≤ greatest) ∧
    (2 ^ 64 ≤ (sentMillis records).sum →
      ((new users).recordAll records).finish elapsed = .error .sumOverflow) := by
  rw [finish_recordAll]
  constructor
  · intro hs
    rw [if_pos hs]
    refine ⟨_, rfl, ?_⟩
    rw [derived_average h]
    exact ⟨rfl, exists_le_average h, exists_average_le h⟩
  · intro hs
    exact if_neg (Nat.not_lt.2 hs)

theorem average_exact_or_overflow_even :
    sentMillis [(.success 201, .ofMillis 10), (.skipped, .ofSecs 5), (.failure none "", .ofMillis 41)]
        = [10, 41] ∧
      ∃ s, ((new 2).recordAll [(.success 201, .ofMillis 10), (.skipped, .ofSecs 5),
        (.failure none "", .ofMillis 41)]).finish (.ofSecs 1) = .ok s ∧ s.averageMillis = 25 := by
  have hsent : sentMillis [(.success 201, .ofMillis 10), (.skipped, .ofSecs 5),
      (.failure none "", .ofMillis 41)] = [10, 41] := by decide
  have h := average_exact_or_overflow 2 [(.success 201, .ofMillis 10), (.skipped, .ofSecs 5),
    (.failure none "", .ofMillis 41)] (.ofSecs 1) (by rw [hsent]; decide)
  rw [hsent] at h
  obtain ⟨s, hs, haverage, -⟩ := h.1 (by decide)
  exact ⟨hsent, s, hs, haverage⟩

/-- Half of the milliseconds that 64 bits count. -/
def half : Duration := .ofMillis (2 ^ 63)

/-- The sum of two such latencies is more than 64 bits hold, and their average, which would be one of them,
is not found. -/
theorem average_overflows :
    sentMillis [(.success 200, half), (.success 200, half)] = [2 ^ 63, 2 ^ 63] ∧
      ([2 ^ 63, 2 ^ 63].sum / [2 ^ 63, 2 ^ 63].length : Nat) = 2 ^ 63 ∧
      ((new 1).recordAll [(.success 200, half), (.success 200, half)]).finish .zero =
        .error .sumOverflow := by
  have hsent : sentMillis [(.success 200, half), (.success 200, half)] = [2 ^ 63, 2 ^ 63] := by
    decide +kernel
  refine ⟨hsent, by decide, ?_⟩
  rw [finish_recordAll, hsent]
  exact if_neg (by decide)

/-! ## Ranks -/

/-- A value with a rank among some values: fewer come before it, and no fewer up to it. -/
structure HasRank (rank : Nat) (values : List Nat) (v : Nat) : Prop where
  mem : v ∈ values
  before : values.countP (· < v) < rank
  upTo : rank ≤ values.countP (· ≤ v)

theorem HasRank.perm {rank v : Nat} {xs ys : List Nat} (h : HasRank rank xs v) (hp : xs.Perm ys) :
    HasRank rank ys v :=
  ⟨hp.mem_iff.1 h.mem, hp.countP_eq _ ▸ h.before, hp.countP_eq _ ▸ h.upTo⟩

/-- In a rising list a place is a rank. -/
theorem hasRank_getElem {xs : List Nat} (h : xs.Pairwise (· ≤ ·)) {i : Nat} (hi : i < xs.length) :
    HasRank (i + 1) xs xs[i] := by
  have hle : ∀ j k (hk : k < xs.length), (hjk : j ≤ k) → xs[j] ≤ xs[k] := by
    intro j k hk hjk
    rcases hjk.lt_or_eq with hlt | rfl
    · exact List.pairwise_iff_getElem.1 h j k _ hk hlt
    · exact Nat.le_refl _
  refine ⟨List.getElem_mem hi, ?_, ?_⟩
  · -- what comes before the value comes before its place
    have hdrop : (xs.drop i).countP (· < xs[i]) = 0 := by
      rw [List.countP_eq_zero]
      intro x hx
      obtain ⟨k, hk, rfl⟩ := List.mem_drop_iff_getElem.1 hx
      simpa using hle i (i + k) (by omega) (by omega)
    have htake : (xs.take i).countP (· < xs[i]) ≤ i :=
      List.countP_le_length.trans (List.length_take_le ..)
    have hsplit := congrArg (List.countP (· < xs[i])) (List.take_append_drop i xs)
    rw [List.countP_append, hdrop] at hsplit
    omega
  · have htake : (xs.take (i + 1)).countP (· ≤ xs[i]) = i + 1 := by
      rw [List.countP_eq_length.2, List.length_take, Nat.min_eq_left hi]
      intro x hx
      obtain ⟨k, hk, rfl⟩ := List.mem_take_iff_getElem.1 hx
      simpa using hle k i hi (by omega)
    exact htake ▸ (List.take_sublist _ xs).countP_le

/-! ## The percentile -/

/-- The place of the percentile in exact arithmetic, counted from one: 95 of 100, rounded up. -/
def rank95 (count : Nat) : Nat := ⌈(19 * count / 20 : ℚ)⌉₊

theorem rank95_spec (count : Nat) :
    19 * count ≤ 20 * rank95 count ∧ 20 * rank95 count < 19 * count + 20 := by
  have hle := Nat.le_ceil (19 * count / 20 : ℚ)
  have hlt := Nat.ceil_lt_add_one (show (0 : ℚ) ≤ 19 * count / 20 by positivity)
  change (19 * count / 20 : ℚ) ≤ rank95 count at hle
  change (rank95 count : ℚ) < 19 * count / 20 + 1 at hlt
  constructor
  · have : (19 * count : ℚ) ≤ 20 * rank95 count := by linarith
    exact_mod_cast this
  · have : (20 * rank95 count : ℚ) < 19 * count + 20 := by linarith
    exact_mod_cast this

/-- The share is a little less than 95 of 100. -/
theorem share_ratio : ((Binary.ofFloat? share).map Binary.ratio).getD (0, 1) =
    (8556839292003942, 2 ^ 53) := by
  decide +kernel

/-- What the share and the rounding take away from 95 of 100 does not reach the whole number
below. -/
theorem ceiling_share {count : Nat} (h : count < 2 ^ 48) :
    ceiling (nearest false (count * 8556839292003942) (2 ^ 53)) = rank95 count := by
  obtain ⟨hle, hlt⟩ := rank95_spec count
  obtain ⟨place, hp, hr⟩ := nearest_ofSteps (count * 8556839292003942) (show 0 < 2 ^ 53 by decide)
  have hc : (count : ℚ) < 2 ^ 48 := by exact_mod_cast h
  have hc0 : (0 : ℚ) ≤ count := Nat.cast_nonneg count
  push_cast at hr
  have hulp : ulp 1069 = 1 / 32 := by norm_num [ulp]
  have hsmall : (count * 8556839292003942 / 2 ^ 53 : ℚ) < 2 ^ 53 * ulp 1069 := by
    rw [hulp]
    linarith
  have herror := hr.error hsmall
  rw [hp, ceiling_ofSteps (hr.lt_infinitySteps hsmall (by norm_num))]
  refine Nat.le_antisymm ?_ ?_
  · -- the rank is a float, and rounding does not pass it
    obtain ⟨steps, hs⟩ := exists_valueAt_eq (show rank95 count ≤ 2 ^ 53 by omega)
    have hrank : (19 * count : ℚ) ≤ 20 * rank95 count := by exact_mod_cast hle
    rw [Nat.ceil_le, ← hs]
    refine valueAt_mono (hr.le_place ?_)
    rw [hs]
    linarith
  · have hrank : (20 * rank95 count + 1 : ℚ) ≤ 19 * count + 20 := by exact_mod_cast hlt
    rw [hulp] at herror
    have hlow := abs_le.1
      (show |valueAt place - count * 8556839292003942 / 9007199254740992| ≤ 1 / 64 by linarith)
    by_contra hbelow
    have hnext : (⌈valueAt place⌉₊ + 1 : ℚ) ≤ rank95 count := by exact_mod_cast not_le.1 hbelow
    linarith [Nat.le_ceil (valueAt place)]

theorem p95Index_lt {count : Nat} (h : 0 < count) : p95Index count < count :=
  Nat.lt_of_le_of_lt (Nat.min_le_right ..) (Nat.sub_one_lt (Nat.ne_of_gt h))

/-- Up to 2^48 latencies the place is the exact one. -/
theorem p95Index_eq {count : Nat} (h : count < 2 ^ 48) : p95Index count = rank95 count - 1 := by
  have hrank := rank95_spec count
  unfold p95Index
  rw [share_ratio]
  dsimp only
  rw [ceiling_share h]
  omega

/-- What is looked up is there. -/
theorem p95_of_sent {records : List (Outcome × Duration)} (h : sentMillis records ≠ [])
    (users : Nat) (elapsed : Duration) :
    (sentMillis records).mergeSort[p95Index (sentMillis records).length]? =
      some (((new users).recordAll records).derived elapsed).p95Millis := by
  have hlt := p95Index_lt (List.length_pos_iff.2 h)
  have hget := List.getElem?_eq_getElem (l := (sentMillis records).mergeSort)
    (by rwa [List.length_mergeSort])
  have hperm := latencies_perm users records
  simp only [derived, mergeSort_eq_of_perm hperm, hperm.length_eq]
  rw [hget]
  rfl

/-- The percentile of a run that sent fewer than 2^48 orders and was summed up: the place that is looked up
lies inside the latencies, and the latency there has the rank of 95 of 100, rounded up. So at least 95 of 100
latencies are up to it, and fewer than that are below it. -/
theorem p95_has_rank (users : Nat) (records : List (Outcome × Duration)) (elapsed : Duration) (s : Summary)
    (h : sentMillis records ≠ []) (hlt : (sentMillis records).length < 2 ^ 48)
    (hs : ((new users).recordAll records).finish elapsed = .ok s) :
    p95Index (sentMillis records).length < (sentMillis records).length ∧
    (sentMillis records).mergeSort[rank95 (sentMillis records).length - 1]? = some s.p95Millis ∧
    HasRank (rank95 (sentMillis records).length) (sentMillis records) s.p95Millis ∧
    19 * (sentMillis records).length ≤ 20 * (sentMillis records).countP (· ≤ s.p95Millis) ∧
    20 * (sentMillis records).countP (· < s.p95Millis) < 19 * (sentMillis records).length := by
  have hpos := List.length_pos_iff.2 h
  have hindex := p95Index_lt hpos
  have hget := p95_of_sent h users elapsed
  rw [← eq_derived hs] at hget
  obtain ⟨hle, hrank⟩ := rank95_spec (sentMillis records).length
  rw [p95Index_eq hlt] at hget
  obtain ⟨hi, he⟩ := List.getElem?_eq_some_iff.1 hget
  have hsorted := hasRank_getElem (List.pairwise_mergeSort' (· ≤ ·) (sentMillis records)) hi
  rw [he, show rank95 (sentMillis records).length - 1 + 1 = rank95 (sentMillis records).length by omega]
    at hsorted
  have hhas := hsorted.perm (List.mergeSort_perm ..)
  have hbefore := hhas.before
  have hupTo := hhas.upTo
  exact ⟨hindex, hget, hhas, by omega, by omega⟩

/-- Twenty orders, each a millisecond faster than the one before. -/
def twenty : List (Outcome × Duration) :=
  (List.range 20).map fun i => (.success 200, .ofMillis (20 - i))

theorem p95_has_rank_twenty :
    (sentMillis twenty ≠ [] ∧ (sentMillis twenty).length < 2 ^ 48) ∧
      ∃ s, ((new 3).recordAll twenty).finish .zero = .ok s ∧ s.p95Millis = 19 := by
  have hsent : sentMillis twenty = (List.range' 1 20).reverse := by decide +kernel
  have hne : sentMillis twenty ≠ [] := by rw [hsent]; decide
  have hlt : (sentMillis twenty).length < 2 ^ 48 := by rw [hsent]; decide
  have hs : ((new 3).recordAll twenty).finish .zero = .ok (((new 3).recordAll twenty).derived .zero) := by
    rw [finish_recordAll, hsent]
    exact if_pos (by decide)
  obtain ⟨-, -, ⟨hmem, -, -⟩, hle, hbefore⟩ := p95_has_rank 3 twenty .zero _ hne hlt hs
  refine ⟨⟨hne, hlt⟩, _, hs, ?_⟩
  generalize (((new 3).recordAll twenty).derived .zero).p95Millis = p95 at hmem hle hbefore
  rw [hsent] at hmem hle hbefore
  -- of the twenty values one alone has nineteen values up to it and fewer below
  have hall : ∀ v ∈ (List.range' 1 20).reverse, 19 * (List.range' 1 20).reverse.length ≤
      20 * (List.range' 1 20).reverse.countP (· ≤ v) →
      20 * (List.range' 1 20).reverse.countP (· < v) < 19 * (List.range' 1 20).reverse.length →
      v = 19 := by decide
  exact hall p95 hmem hle hbefore

end LunchRush.Summary
