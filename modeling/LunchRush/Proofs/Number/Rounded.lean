import LunchRush.Proofs.Number.Places
/-!
# Rounded numbers

`valueAt` is the exact value of the float at a place. `Rounds` says at which place a rational number
is rounded to the nearest float: the larger of two numbers never comes first (`Rounds.le_of_le`), a
float stays where it is (`Rounds.self`), and a number moves by half of a last bit at most
(`Rounds.error`).
-/

namespace LunchRush.Number

/-- The last bit of a float after so many doublings. -/
def ulp (doublings : Nat) : ℚ := 2 ^ ((doublings : Int) - 1074)

theorem ulp_pos (e : Nat) : 0 < ulp e := by
  unfold ulp
  positivity

theorem ulp_add (e k : Nat) : ulp (e + k) = 2 ^ k * ulp e := by
  unfold ulp
  rw [show ((e + k : Nat) : Int) - 1074 = k + (e - 1074) by omega, zpow_add₀ (by norm_num),
    zpow_natCast]

theorem ulp_le {e k : Nat} (h : e ≤ k) : ulp e ≤ ulp k := by
  unfold ulp
  exact zpow_le_zpow_right₀ (by norm_num) (by omega)

/-- The float at a place, as far as places are finite. -/
def valueAt (steps : Nat) : ℚ := mantissaAt steps * ulp (doublings steps)

/-! ## Halves -/

/-- The natural number next to a rational one, a half going to the even neighbour. -/
structure HalfEven (w : ℚ) (m : Nat) : Prop where
  low : 2 * (m : ℚ) - 1 ≤ 2 * w
  high : 2 * w ≤ 2 * m + 1
  strict : m % 2 = 1 → 2 * (m : ℚ) - 1 < 2 * w ∧ 2 * w < 2 * m + 1

theorem HalfEven.self (m : Nat) : HalfEven m m :=
  ⟨by linarith, by linarith, fun _ => by constructor <;> linarith⟩

theorem HalfEven.le_of_le {v w : ℚ} {m n : Nat} (hv : HalfEven v m) (hw : HalfEven w n) (h : v ≤ w) :
    m ≤ n := by
  by_contra hlt
  have hn : (n : ℚ) + 1 ≤ m := by exact_mod_cast (by omega : n + 1 ≤ m)
  have hm : (m : ℚ) ≤ n + 1 := by linarith [hv.low, hw.high]
  have hsucc : m = n + 1 := by exact_mod_cast le_antisymm hm hn
  -- both numbers lie halfway between the two, and one of the two is odd
  rcases Nat.mod_two_eq_zero_or_one n with he | ho
  · linarith [(hv.strict (by omega)).1, hw.high]
  · linarith [(hw.strict ho).2, hv.low]

theorem HalfEven.le_natCast {w : ℚ} {m n : Nat} (h : HalfEven w m) (hw : w ≤ n) : m ≤ n :=
  h.le_of_le (.self n) hw

theorem HalfEven.natCast_le {w : ℚ} {m n : Nat} (h : HalfEven w m) (hw : n ≤ w) : n ≤ m :=
  HalfEven.le_of_le (.self n) h hw

/-! ## Places -/

/-- The place at which a number is rounded: in units of its last bit it has at most 53 bits, and no
fewer unless the last bit is that of the least floats. -/
def Rounds (v : ℚ) (place : Nat) : Prop :=
  ∃ e m : Nat, place = e * 2 ^ 52 + m ∧ v / ulp e < 2 ^ 53 ∧ (e = 0 ∨ 2 ^ 52 ≤ v / ulp e) ∧
    HalfEven (v / ulp e) m

/-- The mantissa has 53 bits too, or has just grown past them. -/
theorem Rounds.fields {v : ℚ} {n : Nat} (h : Rounds v n) : ∃ e m : Nat, n = e * 2 ^ 52 + m ∧
    v / ulp e < 2 ^ 53 ∧ (e = 0 ∨ (2 ^ 52 ≤ v / ulp e ∧ 2 ^ 52 ≤ m)) ∧ m ≤ 2 ^ 53 ∧
    HalfEven (v / ulp e) m := by
  obtain ⟨e, m, hn, hlt, hlow, hm⟩ := h
  refine ⟨e, m, hn, hlt, hlow.imp_right fun hlow => ⟨hlow, hm.natCast_le ?_⟩, hm.le_natCast ?_, hm⟩
  · exact_mod_cast hlow
  · exact_mod_cast hlt.le

/-- A float is rounded to itself. -/
theorem Rounds.self (steps : Nat) : Rounds (valueAt steps) steps := by
  obtain ⟨hm, hd, hs⟩ := mantissaAt_spec steps
  have hw : valueAt steps / ulp (doublings steps) = mantissaAt steps := by
    rw [valueAt, mul_div_assoc, div_self (ulp_pos _).ne', mul_one]
  refine ⟨doublings steps, mantissaAt steps, hs.symm, ?_, hd.imp_right fun hd => ?_, ?_⟩ <;> rw [hw]
  · exact_mod_cast hm
  · exact_mod_cast hd
  · exact .self _

/-- The order of two numbers is that of their places. -/
theorem Rounds.le_of_le {u v : ℚ} {n k : Nat} (hu : Rounds u n) (hv : Rounds v k) (h : u ≤ v) :
    n ≤ k := by
  obtain ⟨e, m, rfl, hlt, hlow, hshort, hm⟩ := hu.fields
  obtain ⟨e', m', rfl, hlt', hlow', -, hm'⟩ := hv.fields
  rcases Nat.lt_trichotomy e e' with he | rfl | he
  · have hfull : 2 ^ 52 ≤ m' := (hlow'.resolve_left (by omega)).2
    have := Nat.mul_le_mul_right (2 ^ 52) he
    rw [Nat.succ_mul] at this
    omega
  · have := hm.le_of_le hm' (div_le_div_of_nonneg_right h (ulp_pos e).le)
    omega
  · have hbig := (hlow.resolve_left (by omega)).1
    rw [le_div_iff₀ (ulp_pos e)] at hbig
    rw [div_lt_iff₀ (ulp_pos e')] at hlt'
    have hle := ulp_le (show e' + 1 ≤ e from he)
    rw [ulp_add] at hle
    linarith

theorem valueAt_zero : valueAt 0 = 0 := by simp [valueAt, mantissaAt]

theorem rounds_zero : Rounds 0 0 := valueAt_zero ▸ .self 0

theorem Rounds.unique {v : ℚ} {n k : Nat} (hn : Rounds v n) (hk : Rounds v k) : n = k :=
  Nat.le_antisymm (hn.le_of_le hk le_rfl) (hk.le_of_le hn le_rfl)

theorem Rounds.le_place {v : ℚ} {n k : Nat} (hn : Rounds v n) (h : v ≤ valueAt k) : n ≤ k :=
  hn.le_of_le (.self k) h

theorem Rounds.place_le {v : ℚ} {n k : Nat} (hn : Rounds v n) (h : valueAt k ≤ v) : k ≤ n :=
  Rounds.le_of_le (.self k) hn h

theorem valueAt_mono {n k : Nat} (h : n ≤ k) : valueAt n ≤ valueAt k := by
  by_contra hlt
  have heq : n = k := Nat.le_antisymm h ((Rounds.self k).le_of_le (.self n) (not_le.1 hlt).le)
  exact hlt (heq ▸ le_rfl)

/-- The fields of a place are also its fields where the mantissa has just grown by a bit. -/
theorem valueAt_fields {e m : Nat} (hm : m ≤ 2 ^ 53) (he : e = 0 ∨ 2 ^ 52 ≤ m) :
    valueAt (e * 2 ^ 52 + m) = m * ulp e := by
  rcases hm.lt_or_eq with hlt | rfl
  · have hd : doublings (e * 2 ^ 52 + m) = e := by unfold doublings; omega
    rw [valueAt, mantissaAt, hd, Nat.add_sub_cancel_left]
  · have hd : doublings (e * 2 ^ 52 + 2 ^ 53) = e + 1 := by unfold doublings; omega
    have hm : mantissaAt (e * 2 ^ 52 + 2 ^ 53) = 2 ^ 52 := by rw [mantissaAt, hd]; omega
    rw [valueAt, hd, hm, ulp_add]
    push_cast
    ring

/-- A number that a last bit is long enough for has no longer one. -/
theorem Rounds.fields_le {v : ℚ} {n j : Nat} (h : Rounds v n) (hv : v < 2 ^ 53 * ulp j) :
    ∃ e m : Nat, e ≤ j ∧ n = e * 2 ^ 52 + m ∧ m ≤ 2 ^ 53 ∧ (e = 0 ∨ 2 ^ 52 ≤ m) ∧
      HalfEven (v / ulp e) m := by
  obtain ⟨e, m, hn, -, hlow, hshort, hm⟩ := h.fields
  refine ⟨e, m, ?_, hn, hshort, hlow.imp_right And.right, hm⟩
  by_contra hlt
  have hbig := (hlow.resolve_left (by omega)).1
  rw [le_div_iff₀ (ulp_pos e)] at hbig
  have hle := ulp_le (show j + 1 ≤ e by omega)
  rw [ulp_add] at hle
  linarith

theorem Rounds.lt_infinitySteps {v : ℚ} {n j : Nat} (h : Rounds v n) (hv : v < 2 ^ 53 * ulp j)
    (hj : j < 2045) : n < infinitySteps := by
  obtain ⟨e, m, hej, rfl, hm, -⟩ := h.fields_le hv
  unfold infinitySteps
  omega

/-- Rounding moves a number by at most half of a last bit that is long enough for it. -/
theorem Rounds.error {v : ℚ} {n j : Nat} (h : Rounds v n) (hv : v < 2 ^ 53 * ulp j) :
    2 * |valueAt n - v| ≤ ulp j := by
  obtain ⟨e, m, hej, rfl, hshort, hfull, hm⟩ := h.fields_le hv
  rw [valueAt_fields hshort hfull]
  have hw : v / ulp e * ulp e = v := div_mul_cancel₀ v (ulp_pos e).ne'
  have habs : |(m : ℚ) - v / ulp e| ≤ 1 / 2 := abs_le.2 ⟨by linarith [hm.high], by linarith [hm.low]⟩
  calc 2 * |m * ulp e - v| = 2 * (|(m : ℚ) - v / ulp e| * ulp e) := by
        rw [← abs_of_pos (ulp_pos e), ← abs_mul, abs_of_pos (ulp_pos e), sub_mul, hw]
    _ ≤ 2 * (1 / 2 * ulp e) := by
        gcongr
        exact (ulp_pos e).le
    _ ≤ ulp j := by linarith [ulp_le hej]

/-- The powers of two from one on are floats. -/
theorem valueAt_two_pow (k : Nat) : valueAt ((1023 + k) * 2 ^ 52) = 2 ^ k := by
  have hd : doublings ((1023 + k) * 2 ^ 52) = 1022 + k := by
    unfold doublings
    omega
  have hm : mantissaAt ((1023 + k) * 2 ^ 52) = 2 ^ 52 := by
    rw [mantissaAt, hd]
    omega
  rw [valueAt, hd, hm, ulp, show ((1022 + k : Nat) : Int) - 1074 = k - 52 by omega,
    zpow_sub₀ (by norm_num), zpow_natCast]
  push_cast
  field_simp

/-- A natural number up to 2^53 is a float. -/
theorem exists_valueAt_eq {k : Nat} (hk : k ≤ 2 ^ 53) : ∃ steps, valueAt steps = k := by
  rcases hk.lt_or_eq with hk | rfl
  swap
  · exact ⟨_, by rw [valueAt_two_pow 53]; norm_num⟩
  rcases Nat.eq_zero_or_pos k with rfl | hpos
  · exact ⟨0, by rw [valueAt_zero, Nat.cast_zero]⟩
  have hlog : k.log2 < 53 := (Nat.log2_lt (Nat.ne_of_gt hpos)).2 hk
  obtain ⟨s, hs⟩ : ∃ s, k.log2 + s = 52 := ⟨52 - k.log2, by omega⟩
  have hlow : 2 ^ 52 ≤ k * 2 ^ s := by
    rw [← hs, pow_add]
    exact Nat.mul_le_mul_right _ (Nat.log2_self_le (Nat.ne_of_gt hpos))
  have hhigh : k * 2 ^ s ≤ 2 ^ 53 := by
    rw [show 53 = k.log2 + 1 + s by omega, pow_add]
    exact Nat.mul_le_mul_right _ Nat.lt_log2_self.le
  refine ⟨(1074 - s) * 2 ^ 52 + k * 2 ^ s, ?_⟩
  rw [valueAt_fields hhigh (.inr hlow), ulp, show ((1074 - s : Nat) : Int) - 1074 = -s by omega,
    zpow_neg, zpow_natCast]
  push_cast
  field_simp

/-- It is rounded to that float. -/
theorem Rounds.exact {k place : Nat} (h : Rounds k place) (hk : k ≤ 2 ^ 53) : valueAt place = k := by
  obtain ⟨steps, hs⟩ := exists_valueAt_eq hk
  have hself := Rounds.self steps
  rw [hs] at hself
  rw [h.unique hself, hs]

/-- From 2^53 on a float has no room for a part of one. -/
theorem Rounds.absorbs {place sum : Nat} {x : ℚ} (h : Rounds (valueAt place + x) sum)
    (hp : 2 ^ 53 ≤ valueAt place) (hx : 0 ≤ x) (hone : x < 1) : sum = place := by
  obtain ⟨hm, hd, hs⟩ := mantissaAt_spec place
  have hmq : (mantissaAt place : ℚ) + 1 ≤ 2 ^ 53 := by exact_mod_cast hm
  have hulp : 2 ≤ ulp (doublings place) := by
    have hlarge : 1075 ≤ doublings place := by
      by_contra hsmall
      have hle := ulp_le (show doublings place ≤ 1074 by omega)
      rw [show ulp 1074 = 1 by norm_num [ulp]] at hle
      have : valueAt place ≤ mantissaAt place * 1 :=
        mul_le_mul_of_nonneg_left hle (Nat.cast_nonneg _)
      linarith
    have hle := ulp_le hlarge
    rwa [show ulp 1075 = 2 by norm_num [ulp]] at hle
  have hvalue : valueAt place = mantissaAt place * ulp (doublings place) := rfl
  have hnext : valueAt (place + 1) = valueAt place + ulp (doublings place) := by
    have hfull : doublings place = 0 ∨ 2 ^ 52 ≤ mantissaAt place + 1 := hd.imp_right (by omega)
    have hfields := valueAt_fields (show mantissaAt place + 1 ≤ 2 ^ 53 from hm) hfull
    rw [← Nat.add_assoc, hs] at hfields
    rw [hfields, hvalue]
    push_cast
    ring
  refine Nat.le_antisymm ?_ (h.place_le (by linarith))
  by_contra hlt
  have hfar := valueAt_mono (show place + 1 ≤ sum by omega)
  have hshort : valueAt place + x < 2 ^ 53 * ulp (doublings place) := by
    have := mul_le_mul_of_nonneg_right hmq (ulp_pos (doublings place)).le
    linarith
  have herror := h.error hshort
  have habs := le_abs_self (valueAt sum - (valueAt place + x))
  linarith

end LunchRush.Number
