import LunchRush.Number.Rounding
import LunchRush.Proofs.Number.Nearest
import LunchRush.Proofs.Number.Rounding
/-!
# Arithmetic on places

Every operation on finite floats of positive sign gives the float at the place where the exact
result rounds: product, sum, difference, quotient (`mul_ofSteps` and its siblings), the float of a
ratio (`nearest_ofSteps`), the nearest whole number (`roundAway_ofSteps`) and the next one above
(`ceiling_ofSteps`).
-/

namespace LunchRush.Number

open Float.Model (Format UnpackedFloat totalExponent)
open Float.Model.UnpackedFloat

/-! ## Operations -/

theorem le_log2_mantissaAt {n : Nat} (h : doublings n ≠ 0) : 52 ≤ (mantissaAt n).log2 := by
  obtain ⟨-, hfull, -⟩ := mantissaAt_spec n
  have hfull := hfull.resolve_left h
  exact (Nat.le_log2 (by omega)).2 hfull

theorem mul_ofSteps {n k : Nat} (hn : n < infinitySteps) (hk : k < infinitySteps) :
    ∃ place, ofSteps false n * ofSteps false k = ofSteps false place ∧
      Rounds (valueAt n * valueAt k) place := by
  have hmul : ofSteps false n * ofSteps false k = packed (UnpackedFloat.mul .binary64
    (ofSteps false n).toModel.unpack (ofSteps false k).toModel.unpack) := rfl
  rw [hmul]
  obtain ⟨rfl, hu⟩ | ⟨hm, hu⟩ := unpacked_pos hn
  · refine ⟨0, ?_, by simpa [valueAt_zero] using rounds_zero⟩
    rw [hu]
    obtain ⟨-, hv⟩ | ⟨_, hv⟩ := unpacked_pos hk <;> rw [hv] <;> exact packed_zero
  obtain ⟨rfl, hv⟩ | ⟨hm', hv⟩ := unpacked_pos hk
  · refine ⟨0, ?_, by simpa [valueAt_zero] using rounds_zero⟩
    rw [hu, hv]
    exact packed_zero
  rw [hu, hv]
  have hlog : (doublings n : Int) - 1074 + (doublings k - 1074) ≤
      max ((mantissaAt n * mantissaAt k).log2 + 1 +
        ((doublings n : Int) - 1074 + (doublings k - 1074)) - 53) (-1074) := by
    have hl := log2_mono (Nat.ne_of_gt hm) (Nat.le_mul_of_pos_right (mantissaAt n) hm')
    have hl' := log2_mono (Nat.ne_of_gt hm') (Nat.le_mul_of_pos_left (mantissaAt k) hm)
    have h52 := le_log2_mantissaAt (n := n)
    have h52' := le_log2_mantissaAt (n := k)
    omega
  obtain ⟨place, hp, hr⟩ := packed_roundWithAccuracy false (represents_exact _) hlog
  refine ⟨place, hp, ?_⟩
  convert hr using 1
  rw [zpow_add₀ (by norm_num)]
  simp only [valueAt, ulp]
  push_cast
  ring

/-- The two mantissas over the smaller of the two last bits. -/
theorem aligned (n : Nat) (e : Int) (h : e ≤ (doublings n : Int) - 1074) :
    ((decreaseExponent (mantissaAt n) ((doublings n : Int) - 1074) e).1 : ℚ) * 2 ^ e = valueAt n := by
  obtain ⟨s, hs⟩ := Int.eq_ofNat_of_zero_le (show 0 ≤ (doublings n : Int) - 1074 - e by omega)
  simp only [decreaseExponent, hs, Int.toNat_natCast, Nat.shiftLeft_eq, valueAt, ulp]
  rw [show (doublings n : Int) - 1074 = s + e by omega, zpow_add₀ (by norm_num), zpow_natCast]
  push_cast
  ring

theorem add_ofSteps {n k : Nat} (hn : n < infinitySteps) (hk : k < infinitySteps) :
    ∃ place, ofSteps false n + ofSteps false k = ofSteps false place ∧
      Rounds (valueAt n + valueAt k) place := by
  have hadd : ofSteps false n + ofSteps false k = packed (UnpackedFloat.add .binary64
    (ofSteps false n).toModel.unpack (ofSteps false k).toModel.unpack) := rfl
  obtain ⟨rfl, hu⟩ | ⟨hm, hu⟩ := unpacked_pos hn
  · refine ⟨k, ?_, by simpa [valueAt_zero] using Rounds.self k⟩
    rw [hadd, hu]
    obtain ⟨rfl, hv⟩ | ⟨hm', hv⟩ := unpacked_pos hk <;> rw [hv]
    · exact packed_zero
    · exact packed_finite false hm'
  obtain ⟨rfl, hv⟩ | ⟨hm', hv⟩ := unpacked_pos hk
  · refine ⟨n, ?_, by simpa [valueAt_zero] using Rounds.self n⟩
    rw [hadd, hu, hv]
    exact packed_finite false hm
  generalize he : min ((doublings n : Int) - 1074) ((doublings k : Int) - 1074) = e
  obtain ⟨place, hp, hr⟩ := packed_normalize
    ((decreaseExponent (mantissaAt n) ((doublings n : Int) - 1074) e).1 +
      (decreaseExponent (mantissaAt k) ((doublings k : Int) - 1074) e).1) e
  refine ⟨place, ?_, ?_⟩
  · rw [hadd, hu, hv, ← hp]
    simp only [UnpackedFloat.add, he]
    rfl
  · convert hr using 1
    push_cast
    rw [add_mul, aligned n e (by omega), aligned k e (by omega)]

theorem sub_ofSteps {n k : Nat} (hn : n < infinitySteps) (hk : k ≤ n) :
    ∃ place, ofSteps false n - ofSteps false k = ofSteps false place ∧
      Rounds (valueAt n - valueAt k) place := by
  have hsub : ofSteps false n - ofSteps false k = packed (UnpackedFloat.sub .binary64
    (ofSteps false n).toModel.unpack (ofSteps false k).toModel.unpack) := rfl
  obtain ⟨rfl, hu⟩ | ⟨hm, hu⟩ := unpacked_pos hn
  · obtain rfl : k = 0 := by omega
    exact ⟨0, by rw [hsub, hu]; exact packed_zero, by simpa using rounds_zero⟩
  obtain ⟨rfl, hv⟩ | ⟨hm', hv⟩ := unpacked_pos (hk.trans_lt hn)
  · refine ⟨n, ?_, by simpa [valueAt_zero] using Rounds.self n⟩
    rw [hsub, hu, hv]
    exact packed_finite false hm
  generalize he : min ((doublings n : Int) - 1074) ((doublings k : Int) - 1074) = e
  have hvn := aligned n e (by omega)
  have hvk := aligned k e (by omega)
  generalize hmn : (decreaseExponent (mantissaAt n) ((doublings n : Int) - 1074) e).1 = m at hvn
  generalize hmk : (decreaseExponent (mantissaAt k) ((doublings k : Int) - 1074) e).1 = m' at hvk
  have hle : m' ≤ m := by
    have hval := valueAt_mono hk
    rw [← hvn, ← hvk] at hval
    exact_mod_cast le_of_mul_le_mul_right hval (by positivity)
  obtain ⟨place, hp, hr⟩ := packed_normalize (m - m') e
  refine ⟨place, ?_, ?_⟩
  · rw [hsub, hu, hv, ← hp]
    simp only [UnpackedFloat.sub, he, hmn, hmk]
    rw [Nat.cast_sub hle]
    rfl
  · convert hr using 1
    rw [Nat.cast_sub hle, sub_mul, hvn, hvk]

/-- The quotient has enough bits for a mantissa, and its remainder says what is missing. -/
theorem divCore_spec {m m' : Nat} (hm : 0 < m) (hm' : 0 < m') (e e' : Int) :
    let core := divCore .binary64 m e m' e'
    ∃ w : ℚ, Represents (.ofMantissaAndAccuracy core.1 core.2.2) w ∧
      w * 2 ^ core.2.1 = m * 2 ^ e / (m' * 2 ^ e') ∧
      core.2.1 ≤ max (core.1.log2 + 1 + core.2.1 - 53) (-1074) := by
  have htarget : Format.binary64.targetExponent (totalExponent m e - totalExponent m' e') =
      max ((m.log2 + 1 + e) - (m'.log2 + 1 + e') - 53) (-1074) := rfl
  generalize ht : min (e - e') (max ((m.log2 + 1 + e) - (m'.log2 + 1 + e') - 53) (-1074)) = t
  obtain ⟨s, hs⟩ := Int.eq_ofNat_of_zero_le (show 0 ≤ e - e' - t by omega)
  have hcore : divCore .binary64 m e m' e' =
      (m * 2 ^ s / m', t, accuracyOfFraction (m * 2 ^ s % m') m') := by
    simp only [divCore, htarget, ht, hs, Int.toNat_natCast, Nat.shiftLeft_eq]
  rw [hcore]
  refine ⟨_, represents_div (m * 2 ^ s) hm', ?_, ?_⟩
  · rw [show e = s + t + e' by omega, zpow_add₀ (by norm_num), zpow_add₀ (by norm_num), zpow_natCast]
    have : (m' : ℚ) ≠ 0 := by positivity
    push_cast
    field_simp
  · dsimp only
    rcases lt_or_ge (-1074) t with h | h
    · -- above the least last bit the shift makes the quotient long enough
      have hq : 2 ^ 52 ≤ m * 2 ^ s / m' := by
        rw [Nat.le_div_iff_mul_le hm']
        calc 2 ^ 52 * m' ≤ 2 ^ 52 * 2 ^ (m'.log2 + 1) := by
              gcongr
              exact Nat.lt_log2_self.le
          _ = 2 ^ (52 + (m'.log2 + 1)) := (pow_add ..).symm
          _ ≤ 2 ^ (m.log2 + s) := Nat.pow_le_pow_right (by norm_num) (by omega)
          _ = 2 ^ m.log2 * 2 ^ s := pow_add ..
          _ ≤ m * 2 ^ s := by
              gcongr
              exact Nat.log2_self_le (Nat.ne_of_gt hm)
      have := (Nat.le_log2 (by omega)).2 hq
      omega
    · omega

theorem div_ofSteps {n k : Nat} (hn : n < infinitySteps) (hk : k < infinitySteps) (hpos : 0 < k) :
    ∃ place, ofSteps false n / ofSteps false k = ofSteps false place ∧
      Rounds (valueAt n / valueAt k) place := by
  have hdiv : ofSteps false n / ofSteps false k = packed (UnpackedFloat.div .binary64
    (ofSteps false n).toModel.unpack (ofSteps false k).toModel.unpack) := rfl
  obtain ⟨rfl, -⟩ | ⟨hm', hv⟩ := unpacked_pos hk
  · omega
  obtain ⟨rfl, hu⟩ | ⟨hm, hu⟩ := unpacked_pos hn
  · exact ⟨0, by rw [hdiv, hu, hv]; exact packed_zero, by simpa [valueAt_zero] using rounds_zero⟩
  rw [hdiv, hu, hv]
  have hcore := divCore_spec hm hm' ((doublings n : Int) - 1074) ((doublings k : Int) - 1074)
  simp only [UnpackedFloat.div]
  generalize divCore .binary64 (mantissaAt n) ((doublings n : Int) - 1074) (mantissaAt k)
    ((doublings k : Int) - 1074) = core at hcore
  obtain ⟨m, e, acc⟩ := core
  obtain ⟨w, hw, hv, he⟩ := hcore
  obtain ⟨place, hp, hr⟩ := packed_roundWithAccuracy false hw he
  refine ⟨place, hp, ?_⟩
  rw [hv, mul_div_mul_comm, ← zpow_sub₀ (by norm_num)] at hr
  convert hr using 1
  rw [valueAt, valueAt, mul_div_mul_comm, ulp, ulp, ← zpow_sub₀ (by norm_num)]

theorem toFloat_ofSteps (n : UInt64) :
    ∃ place, n.toFloat = ofSteps false place ∧ Rounds n.toNat place := by
  obtain ⟨place, hp, hr⟩ := packed_normalize n.toNat 0
  exact ⟨place, hp, by simpa using hr⟩

/-! ## Ratios -/

/-- The rounded quotient of naturals is rounded in the same way. -/
theorem roundDiv_halfEven (num : Nat) {den : Nat} (hden : 0 < den) :
    HalfEven (num / den) (roundDiv num den .toEven) := by
  have h : roundDiv num den .toEven = (ExtendedMantissa.ofMantissaAndAccuracy (num / den)
      (accuracyOfFraction (num % den) den)).roundedMantissa := by
    rw [roundedMantissa_ofMantissaAndAccuracy]
    unfold roundDiv Tie.roundsUp accuracyOfFraction
    have hlt := Nat.mod_lt num hden
    generalize num % den = rest at hlt
    generalize num / den = quotient
    split
    · rename_i h0
      simp [h0, Accuracy.roundToNearestEven]
      omega
    · rcases Nat.lt_trichotomy (2 * rest) den with h | h | h
      · rw [Nat.compare_eq_lt.2 h]
        simp [Accuracy.roundToNearestEven]
        omega
      · rw [Nat.compare_eq_eq.2 h]
        simp [Accuracy.roundToNearestEven, h]
        split <;> omega
      · rw [Nat.compare_eq_gt.2 h]
        simp [Accuracy.roundToNearestEven, h]
  rw [h]
  exact (represents_div num hden).halfEven

theorem nearest_ofSteps (num : Nat) {den : Nat} (hden : 0 < den) :
    ∃ place, nearest false num den = ofSteps false place ∧ Rounds (num / den) place := by
  rcases Nat.eq_zero_or_pos num with rfl | hnum
  · exact ⟨0, rfl, by simpa using rounds_zero⟩
  obtain ⟨hmin, hlt, hbits⟩ := lastBit_spec hnum hden
  obtain ⟨b, hb⟩ := Int.eq_ofNat_of_zero_le (show 0 ≤ lastBit num den + 1074 by omega)
  have hulp : (2 : ℚ) ^ lastBit num den = ulp b := by
    rw [ulp, show lastBit num den = b - 1074 by omega]
  obtain ⟨hs, hr⟩ := scale_ratio num hden (lastBit num den)
  have hhalf := roundDiv_halfEven (scale num den (lastBit num den)).1 hs
  rw [hr, hulp] at hhalf
  rw [zpow_add₀ (by norm_num), hulp] at hlt
  refine ⟨b * 2 ^ 52 + _, ?_, b, _, rfl, ?_, ?_, hhalf⟩
  · unfold nearest
    rw [if_neg (Nat.ne_of_gt hnum)]
    dsimp only
    rw [hb]
    rfl
  · rw [div_lt_iff₀ (ulp_pos b)]
    exact_mod_cast hlt
  · refine hbits.imp (by omega) fun h => ?_
    rw [zpow_add₀ (by norm_num), hulp] at h
    rw [le_div_iff₀ (ulp_pos b)]
    exact_mod_cast h

/-! ## Whole numbers -/

theorem roundDiv_away (num : Nat) {den : Nat} (hden : 0 < den) :
    roundDiv num den .away = ⌊(num / den : ℚ) + 1 / 2⌋₊ := by
  have hd : (0 : ℚ) < den := by exact_mod_cast hden
  have hlt := Nat.mod_lt num hden
  have hnum := Nat.div_add_mod' num den
  rw [eq_comm, Nat.floor_eq_iff (by positivity), div_add_div _ _ hd.ne' (by norm_num),
    le_div_iff₀ (by positivity), div_lt_iff₀ (by positivity)]
  have key : roundDiv num den .away * (2 * den) ≤ 2 * num + den ∧
      2 * num + den < (roundDiv num den .away + 1) * (2 * den) := by
    unfold roundDiv Tie.roundsUp
    generalize num % den = rest at hlt hnum
    generalize num / den = quotient at hnum
    subst hnum
    have htie : (den < 2 * rest ∨ 2 * rest = den) ↔ den ≤ 2 * rest := by omega
    simp only [beq_self_eq_true, Bool.true_or, Bool.and_true, Bool.or_eq_true, decide_eq_true_eq,
      beq_iff_eq, htie]
    split <;> constructor <;> nlinarith
  exact ⟨by exact_mod_cast (by linarith [key.1]), by exact_mod_cast (by linarith [key.2])⟩

/-- What a finite float is taken apart into is its value. -/
theorem ratio_valueAt (n : Nat) :
    let ratio := (Binary.mk false (mantissaAt n) ((doublings n : Int) - 1074)).ratio
    0 < ratio.2 ∧ (ratio.1 / ratio.2 : ℚ) = valueAt n := by
  simp only [Binary.ratio, valueAt, ulp]
  split
  · rename_i he
    obtain ⟨k, hk⟩ := Int.eq_ofNat_of_zero_le he
    refine ⟨one_pos, ?_⟩
    simp only [hk, Int.toNat_natCast, Nat.pow_eq, zpow_natCast]
    push_cast
    ring
  · rename_i he
    obtain ⟨k, hk⟩ := Int.eq_ofNat_of_zero_le (show 0 ≤ -((doublings n : Int) - 1074) by omega)
    rw [hk, show (doublings n : Int) - 1074 = -k by omega]
    simp only [Int.toNat_natCast, Nat.pow_eq, zpow_neg, zpow_natCast]
    exact ⟨by positivity, by push_cast; field_simp⟩

/-- The whole number next to a finite float. -/
theorem roundAway_ofSteps {n : Nat} (hn : n < infinitySteps) :
    roundAway (ofSteps false n) = ofNat ⌊valueAt n + 1 / 2⌋₊ := by
  unfold roundAway
  rw [ofFloat?_ofSteps hn]
  dsimp only
  split
  · rename_i he
    obtain ⟨k, hk⟩ := Int.eq_ofNat_of_zero_le he
    have hv : valueAt n = (mantissaAt n * 2 ^ k : Nat) := by
      rw [valueAt, ulp, hk, zpow_natCast]
      push_cast
      rfl
    have hfloor : ⌊valueAt n + 1 / 2⌋₊ = mantissaAt n * 2 ^ k := by
      rw [Nat.floor_eq_iff (by rw [hv]; positivity), hv]
      constructor <;> linarith
    rw [hfloor]
    obtain ⟨place, hp, hr⟩ := nearest_ofSteps (mantissaAt n * 2 ^ k) one_pos
    rw [Nat.cast_one, div_one, ← hv] at hr
    rw [ofNat, hp, hr.unique (.self n)]
  · obtain ⟨hpos, hv⟩ := ratio_valueAt n
    rw [roundDiv_away _ hpos, hv, ofNat]

/-- The next whole number above a ratio of naturals. -/
theorem ceil_ratio (num : Nat) {den : Nat} (hden : 0 < den) :
    (num + den - 1) / den = ⌈(num / den : ℚ)⌉₊ := by
  have hd : (0 : ℚ) < den := by exact_mod_cast hden
  refine eq_of_forall_ge_iff fun k => ?_
  rw [Nat.ceil_le, div_le_iff₀ hd, Nat.div_le_iff_le_mul_add_pred hden]
  have : (num : ℚ) ≤ k * den ↔ num ≤ k * den := by exact_mod_cast Iff.rfl
  rw [this, Nat.mul_comm]
  omega

/-- The next whole number above a finite float. -/
theorem ceiling_ofSteps {n : Nat} (hn : n < infinitySteps) :
    ceiling (ofSteps false n) = ⌈valueAt n⌉₊ := by
  obtain ⟨hpos, hv⟩ := ratio_valueAt n
  unfold ceiling
  rw [ofFloat?_ofSteps hn]
  dsimp only
  rw [if_neg (by simp), ceil_ratio _ hpos, hv]

end LunchRush.Number
