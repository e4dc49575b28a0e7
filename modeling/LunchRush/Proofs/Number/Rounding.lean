import LunchRush.Proofs.Number.Rounded
/-!
# The model's rounding

A result is computed with as many bits as it needs and then shifted to its last bit, with a round
bit and a sticky bit for what is shifted out. The two bits keep what rounding asks for
(`Represents.shiftRight`, `Represents.halfEven`), so the rounded result is the float at the place
where its exact value rounds (`packed_roundWithAccuracy`).
-/

namespace LunchRush.Number

open Float.Model (Format UnpackedFloat totalExponent)
open Float.Model.UnpackedFloat

/-! ## Two bits more -/

/-- What a mantissa stands for whose round bit is worth a half and whose sticky bit says that
something is missing which is less. -/
def Represents (em : ExtendedMantissa) (w : ℚ) : Prop :=
  ∃ rest : ℚ, w = em.mantissa + em.roundBit.toNat / 2 + rest ∧ 0 ≤ rest ∧ rest < 1 / 2 ∧
    (rest = 0 ↔ em.stickyBit = false)

theorem Represents.shiftRightOne {em : ExtendedMantissa} {w : ℚ} (h : Represents em w) :
    Represents em.shiftRightOne (w / 2) := by
  obtain ⟨m, round, sticky⟩ := em
  obtain ⟨rest, rfl, h0, h1, hs⟩ := h
  have hm : (m : ℚ) = 2 * (m / 2 : Nat) + (m % 2 != 0).toNat := by
    rcases Nat.mod_two_eq_zero_or_one m with h | h <;> rw [h] <;>
      · simp only [bne_self_eq_false, Bool.toNat_false, Nat.reduceBNe, Bool.toNat_true]
        exact_mod_cast (by omega)
  refine ⟨(round.toNat / 2 + rest) / 2, ?_, by positivity, ?_, ?_⟩
  · simp only [ExtendedMantissa.shiftRightOne]
    rw [hm]
    ring
  · cases round <;> simp <;> linarith
  · cases round
    · simpa [ExtendedMantissa.shiftRightOne] using hs
    · simp [ExtendedMantissa.shiftRightOne]
      linarith

theorem Represents.shiftRight {em : ExtendedMantissa} {w : ℚ} (h : Represents em w) (k : Nat) :
    Represents (em >>> k) (w / 2 ^ k) := by
  change Represents (k.repeat ExtendedMantissa.shiftRightOne em) _
  induction k with
  | zero => rwa [pow_zero, div_one]
  | succ k ih =>
    rw [pow_succ, ← div_div]
    exact ih.shiftRightOne

theorem Represents.bounds {em : ExtendedMantissa} {w : ℚ} (h : Represents em w) :
    em.mantissa ≤ w ∧ w < em.mantissa + 1 := by
  obtain ⟨rest, rfl, h0, h1, -⟩ := h
  cases em.roundBit <;> simp <;> constructor <;> linarith

/-- The two bits are all that rounding needs. -/
theorem Represents.halfEven {em : ExtendedMantissa} {w : ℚ} (h : Represents em w) :
    HalfEven w em.roundedMantissa := by
  obtain ⟨m, round, sticky⟩ := em
  obtain ⟨rest, rfl, h0, h1, hs⟩ := h
  cases round <;> cases sticky <;>
    simp only [ExtendedMantissa.roundedMantissa, ExtendedMantissa.accuracy,
      Accuracy.roundToNearestEven, Bool.toNat_false, Bool.toNat_true, iff_true, reduceCtorEq,
      iff_false] at hs ⊢
  · rw [hs]
    simpa using HalfEven.self m
  · exact ⟨by push_cast; linarith, by push_cast; linarith,
      fun _ => by push_cast; constructor <;> linarith⟩
  · -- a tie: the even neighbour is taken
    rcases Nat.mod_two_eq_zero_or_one m with he | ho
    · rw [he]
      exact ⟨by push_cast; linarith, by push_cast; linarith, fun ho => by omega⟩
    · rw [ho]
      exact ⟨by push_cast; linarith, by push_cast; linarith, fun _ => by omega⟩
  · have hpos := h0.lt_of_ne' hs
    exact ⟨by push_cast; linarith, by push_cast; linarith,
      fun _ => by push_cast; constructor <;> linarith⟩

theorem roundedMantissa_ofMantissaAndAccuracy (m : Nat) (acc : Accuracy) :
    (ExtendedMantissa.ofMantissaAndAccuracy m acc).roundedMantissa = acc.roundToNearestEven m := by
  cases acc with
  | exact => rfl
  | inexact o => cases o <;> rfl

theorem represents_exact (m : Nat) : Represents (.ofMantissaAndAccuracy m .exact) m :=
  ⟨0, by simp [ExtendedMantissa.ofMantissaAndAccuracy], le_rfl, by norm_num,
    by simp [ExtendedMantissa.ofMantissaAndAccuracy]⟩

/-- A remainder says how much is missing. -/
theorem represents_div (m : Nat) {d : Nat} (hd : 0 < d) :
    Represents (.ofMantissaAndAccuracy (m / d) (accuracyOfFraction (m % d) d)) (m / d : ℚ) := by
  have hlt := Nat.mod_lt m hd
  have hd' : (0 : ℚ) < d := by exact_mod_cast hd
  have hm : (m : ℚ) / d = (m / d : Nat) + (m % d : Nat) / d := by
    rw [eq_comm, ← mul_left_inj' hd'.ne', add_mul, div_mul_cancel₀ _ hd'.ne', div_mul_cancel₀ _ hd'.ne']
    exact_mod_cast Nat.div_add_mod' m d
  rw [hm]
  generalize m % d = rest at hlt
  unfold accuracyOfFraction
  split
  · rename_i h0
    exact ⟨0, by simp [ExtendedMantissa.ofMantissaAndAccuracy, h0], le_rfl, by norm_num, by simp [ExtendedMantissa.ofMantissaAndAccuracy]⟩
  · rename_i h0
    have hpos : (0 : ℚ) < rest / d := by positivity
    rcases Nat.lt_trichotomy (2 * rest) d with h | h | h
    · rw [Nat.compare_eq_lt.2 h]
      refine ⟨rest / d, by simp [ExtendedMantissa.ofMantissaAndAccuracy], hpos.le, ?_, by simp [ExtendedMantissa.ofMantissaAndAccuracy, hpos.ne']⟩
      rw [div_lt_div_iff₀ hd' (by norm_num)]
      exact_mod_cast (by omega)
    · rw [Nat.compare_eq_eq.2 h]
      refine ⟨0, ?_, le_rfl, by norm_num, by simp [ExtendedMantissa.ofMantissaAndAccuracy]⟩
      have : (rest : ℚ) / d = 1 / 2 := by
        rw [div_eq_div_iff hd'.ne' (by norm_num)]
        exact_mod_cast (by omega)
      simp [ExtendedMantissa.ofMantissaAndAccuracy, this]
    · rw [Nat.compare_eq_gt.2 h]
      have hhalf : 1 / 2 < (rest : ℚ) / d := by
        rw [div_lt_div_iff₀ (by norm_num) hd']
        exact_mod_cast (by omega)
      have hone : (rest : ℚ) / d < 1 := by
        rw [div_lt_one hd']
        exact_mod_cast hlt
      refine ⟨rest / d - 1 / 2, ?_, by linarith, by linarith, ?_⟩
      · simp [ExtendedMantissa.ofMantissaAndAccuracy]
      · simp only [ExtendedMantissa.ofMantissaAndAccuracy, reduceCtorEq, iff_false]
        linarith

/-! ## The place of a result -/

/-- A mantissa that has grown by a bit is shifted once more, and any other one stays. -/
theorem shift_rounded {r : Nat} {t : Int} (hr : r ≤ 2 ^ 53) (ht : -1074 ≤ t)
    (hfull : t = -1074 ∨ 2 ^ 52 ≤ r) :
    (shiftToTargetExponent .binary64 r t .exact).1.mantissa =
        mantissaAt ((t + 1074).toNat * 2 ^ 52 + r) ∧
      (shiftToTargetExponent .binary64 r t .exact).2 =
        doublings ((t + 1074).toNat * 2 ^ 52 + r) - 1074 := by
  have htarget : Format.binary64.targetExponent (totalExponent r t) =
    max (r.log2 + 1 + t - 53) (-1074) := rfl
  simp only [shiftToTargetExponent, shiftToExponent, htarget]
  unfold mantissaAt doublings
  rcases hr.lt_or_eq with hlt | rfl
  · have hlog : r.log2 ≤ 52 := by
      rcases Nat.eq_zero_or_pos r with rfl | hpos
      · decide
      · exact Nat.le_of_lt_succ ((Nat.log2_lt (Nat.ne_of_gt hpos)).2 hlt)
    have hlog' : t = -1074 ∨ 52 ≤ r.log2 :=
      hfull.imp_right fun h => (Nat.le_log2 (by omega)).2 h
    have hk : (max (r.log2 + 1 + t - 53) (-1074) - t).toNat = 0 := by omega
    rw [hk]
    change r = _ ∧ _
    omega
  · have hlog : Nat.log2 (2 ^ 53) = 53 := by decide
    have hk : (max ((Nat.log2 (2 ^ 53) : Nat) + 1 + t - 53) (-1074) - t).toNat = 1 := by omega
    rw [hk]
    change 2 ^ 53 / 2 = _ ∧ _
    omega

/-- What is packed once a mantissa has been rounded: the float at the place of its fields. -/
theorem packed_rounded (negative : Bool) {m : Nat} {e : Int} {acc : Accuracy} {shifted : ExtendedMantissa}
    {b : Nat} (hshift : shiftToTargetExponent .binary64 m e acc = (shifted, (b : Int) - 1074))
    (hshort : shifted.roundedMantissa ≤ 2 ^ 53) (hfull : b = 0 ∨ 2 ^ 52 ≤ shifted.roundedMantissa) :
    packed (roundWithAccuracy .binary64 (signOf negative) m e acc) =
      ofSteps negative (b * 2 ^ 52 + shifted.roundedMantissa) := by
  unfold roundWithAccuracy
  rw [hshift]
  dsimp only
  generalize shifted.roundedMantissa = r at hshort hfull
  obtain ⟨hmant, hexp⟩ := shift_rounded hshort (t := (b : Int) - 1074) (by omega) (hfull.imp_left (by omega))
  rw [sub_add_cancel, Int.toNat_natCast] at hmant hexp
  generalize shiftToTargetExponent .binary64 r ((b : Int) - 1074) .exact = s at hmant hexp
  obtain ⟨⟨final, _, _⟩, exponent⟩ := s
  dsimp only at hmant hexp ⊢
  subst hmant hexp
  split
  · rename_i hz
    refine (Unpacked.zero ?_).packed
    have := mantissaAt_pos_iff (b * 2 ^ 52 + r)
    omega
  · exact packed_finite negative _

/-- In units of its last bit a number has at most 53 bits, and all of them above the least floats. -/
theorem bits_of_log2 {m : Nat} {w : ℚ} (hlow : m ≤ w) (hhigh : w < m + 1) {e : Int} {b k : Nat}
    (ht : max (m.log2 + 1 + e - 53) (-1074) = (b : Int) - 1074) (hk : (b : Int) - 1074 - e = k) :
    w / 2 ^ k < 2 ^ 53 ∧ (b = 0 ∨ 2 ^ 52 ≤ w / 2 ^ k) := by
  constructor
  · rw [div_lt_iff₀ (by positivity), ← pow_add]
    have hlt : m + 1 ≤ 2 ^ (53 + k) :=
      (Nat.lt_log2_self (n := m)).trans_le (Nat.pow_le_pow_right (by norm_num) (by omega))
    exact hhigh.trans_le (by exact_mod_cast hlt)
  · rcases Nat.eq_zero_or_pos b with hb | hb
    · exact .inl hb
    · right
      rw [le_div_iff₀ (by positivity), ← pow_add]
      have hle : 2 ^ (52 + k) ≤ m := by
        rw [show 52 + k = m.log2 by omega]
        exact Nat.log2_self_le (by rintro rfl; simp at ht; omega)
      exact le_trans (by exact_mod_cast hle) hlow

theorem packed_roundWithAccuracy (negative : Bool) {m : Nat} {e : Int} {acc : Accuracy} {w : ℚ}
    (hw : Represents (.ofMantissaAndAccuracy m acc) w)
    (he : e ≤ max (m.log2 + 1 + e - 53) (-1074)) :
    ∃ place, packed (roundWithAccuracy .binary64 (signOf negative) m e acc) =
      ofSteps negative place ∧ Rounds (w * 2 ^ e) place := by
  have htarget : Format.binary64.targetExponent (totalExponent m e) =
    max (m.log2 + 1 + e - 53) (-1074) := rfl
  have hm : (ExtendedMantissa.ofMantissaAndAccuracy m acc).mantissa = m := by
    cases acc with
    | exact => rfl
    | inexact o => cases o <;> rfl
  have hbounds := hw.bounds
  rw [hm] at hbounds
  obtain ⟨b, hb⟩ := Int.eq_ofNat_of_zero_le
    (show 0 ≤ max (m.log2 + 1 + e - 53) (-1074) + 1074 by omega)
  obtain ⟨k, hk⟩ := Int.eq_ofNat_of_zero_le
    (show 0 ≤ max (m.log2 + 1 + e - 53) (-1074) - e by omega)
  have ht : max (m.log2 + 1 + e - 53) (-1074) = (b : Int) - 1074 := by omega
  rw [ht] at hk htarget
  have hshift : shiftToTargetExponent .binary64 m e acc =
      (ExtendedMantissa.ofMantissaAndAccuracy m acc >>> k, (b : Int) - 1074) := by
    simp only [shiftToTargetExponent, shiftToExponent, htarget]
    rw [hk, Int.toNat_natCast, ← hk]
    simp
  obtain ⟨hshort, hfull⟩ := bits_of_log2 hbounds.1 hbounds.2 ht hk
  have hhalf := (hw.shiftRight k).halfEven
  have hscale : w * 2 ^ e / ulp b = w / 2 ^ k := by
    rw [ulp, show e = (b : Int) - 1074 - k by omega, zpow_sub₀ (by norm_num), zpow_natCast]
    field_simp
  refine ⟨_, packed_rounded negative hshift (hhalf.le_natCast (by exact_mod_cast hshort.le))
    (hfull.imp_right fun h => hhalf.natCast_le (by exact_mod_cast h)), b, _, rfl, ?_, ?_, ?_⟩
  all_goals rw [hscale]
  · exact hshort
  · exact hfull
  · exact hhalf

theorem log2_mul_pow {m : Nat} (hm : m ≠ 0) (k : Nat) : (m * 2 ^ k).log2 = m.log2 + k := by
  induction k with
  | zero => simp
  | succ k ih =>
    rw [pow_succ, ← mul_assoc, mul_comm, Nat.log2_two_mul (by positivity), ih, Nat.add_assoc]

theorem log2_mono {m n : Nat} (hm : m ≠ 0) (h : m ≤ n) : m.log2 ≤ n.log2 :=
  (Nat.le_log2 (by omega)).2 ((Nat.log2_self_le hm).trans h)

/-- What a whole number of bits of any size is rounded to. -/
theorem packed_normalize (m : Nat) (e : Int) :
    ∃ place, packed (UnpackedFloat.normalize .binary64 m e .positive) = ofSteps false place ∧
      Rounds (m * 2 ^ e) place := by
  rcases Nat.eq_zero_or_pos m with rfl | hpos
  · exact ⟨0, packed_zero, by simpa using rounds_zero⟩
  have hcmp : compare (m : Int) 0 = .gt := Int.compare_eq_gt.2 (by omega)
  have htarget : Format.binary64.targetExponent (totalExponent m e) =
    max (m.log2 + 1 + e - 53) (-1074) := rfl
  unfold UnpackedFloat.normalize
  rw [hcmp]
  simp only [UnpackedFloat.round, decreaseExponent, htarget, Int.toNat_natCast, Nat.shiftLeft_eq]
  generalize hs : (e - max (m.log2 + 1 + e - 53) (-1074)).toNat = s
  obtain ⟨place, hp, hr⟩ := packed_roundWithAccuracy false (represents_exact (m * 2 ^ s))
    (e := e - s) (by rw [log2_mul_pow (Nat.ne_of_gt hpos)]; push_cast; omega)
  refine ⟨place, hp, ?_⟩
  convert hr using 1
  rw [zpow_sub₀ (by norm_num), zpow_natCast]
  push_cast
  field_simp

end LunchRush.Number
