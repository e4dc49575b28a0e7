import LunchRush.Number.Shortest
import LunchRush.Proofs.Number.Bits
/-!
# The nearest float

`Binary.Near` says which rationals lie between the two halfway points around a float. `nearest`
gives the float back for every ratio of that kind (`nearest_eq`), and the interval with which the
shortest digits are found is the same (`holds_iff`).
-/

namespace LunchRush.Number

/-! ## Rounded quotients -/

/-- A quotient within a half of a natural rounds to it; at a half it does so where the natural is
even. -/
theorem roundDiv_eq {num den n : Nat} (hden : 0 < den) (hlow : 2 * (n * den) ≤ 2 * num + den)
    (hhigh : 2 * num ≤ 2 * (n * den) + den)
    (hodd : n % 2 = 1 → 2 * (n * den) < 2 * num + den ∧ 2 * num < 2 * (n * den) + den) :
    roundDiv num den .toEven = n := by
  have hdiv := Nat.div_add_mod num den
  have hmod := Nat.mod_lt num hden
  -- the quotient is the natural or the one before it, and the remainder tells which
  have hq : num / den = n ∨ num / den + 1 = n := by
    rcases Nat.lt_trichotomy (num / den) n with h | h | h
    · right
      by_contra hne
      have h2 : num / den + 2 ≤ n := by omega
      have := Nat.mul_le_mul_right den h2
      rw [Nat.add_mul, Nat.mul_comm (num / den)] at this
      omega
    · exact .inl h
    · have := Nat.mul_le_mul_right den (Nat.succ_le_of_lt h)
      rw [Nat.succ_mul, Nat.mul_comm (num / den)] at this
      omega
  unfold roundDiv Tie.roundsUp
  dsimp only
  rcases hq with rfl | rfl
  · rw [Nat.mul_comm (num / den)] at hlow hhigh hodd
    rw [if_neg]
    simp only [Bool.or_eq_true, Bool.and_eq_true, decide_eq_true_eq, beq_iff_eq, reduceCtorEq,
      false_or, not_or, not_and]
    exact ⟨by omega, fun ht ho => by have := hodd ho; omega⟩
  · rw [Nat.add_mul, Nat.mul_comm (num / den)] at hlow hhigh hodd
    rw [if_pos]
    simp only [Bool.or_eq_true, Bool.and_eq_true, decide_eq_true_eq, beq_iff_eq, reduceCtorEq,
      false_or]
    by_cases ht : den < 2 * (num % den)
    · exact .inl ht
    · refine .inr ⟨by omega, ?_⟩
      by_contra he
      have := hodd (by omega)
      omega

/-! ## Powers of two -/

theorem scale_ratio (num : Nat) {den : Nat} (hden : 0 < den) (exponent : Int) :
    0 < (scale num den exponent).2 ∧
      ((scale num den exponent).1 : ℚ) / (scale num den exponent).2 = num / den / 2 ^ exponent := by
  have hd : (den : ℚ) ≠ 0 := by positivity
  unfold scale
  simp only [Nat.pow_eq]
  split
  · rename_i h
    refine ⟨by positivity, ?_⟩
    obtain ⟨k, rfl⟩ := Int.eq_ofNat_of_zero_le h
    simp only [Int.toNat_natCast, zpow_natCast]
    push_cast
    field_simp
  · rename_i h
    refine ⟨hden, ?_⟩
    obtain ⟨k, hk⟩ := Int.eq_ofNat_of_zero_le (show 0 ≤ -exponent by omega)
    rw [show exponent = -(k : Int) by omega]
    simp only [neg_neg, Int.toNat_natCast, zpow_neg, zpow_natCast]
    push_cast
    field_simp

theorem log2_bounds {n : Nat} (h : 0 < n) : (2 : ℚ) ^ (n.log2 : Int) ≤ n ∧ (n : ℚ) < 2 ^ ((n.log2 : Int) + 1) := by
  constructor
  · exact_mod_cast Nat.log2_self_le (Nat.ne_of_gt h)
  · exact_mod_cast (Nat.lt_log2_self : n < 2 ^ (n.log2 + 1))

/-- The quotient by the power of the last bit has at most 53 bits, and no fewer unless it lies below
the normal floats. -/
theorem lastBit_spec {num den : Nat} (hnum : 0 < num) (hden : 0 < den) :
    -1074 ≤ lastBit num den ∧ (num / den : ℚ) < 2 ^ (53 + lastBit num den) ∧
      (lastBit num den = -1074 ∨ (2 : ℚ) ^ (52 + lastBit num den) ≤ num / den) := by
  obtain ⟨hn, hn'⟩ := log2_bounds hnum
  obtain ⟨hd, hd'⟩ := log2_bounds hden
  have hdpos : (0 : ℚ) < den := by positivity
  have hlow : (2 : ℚ) ^ ((num.log2 : Int) - den.log2 - 1) < num / den := by
    rw [lt_div_iff₀ hdpos]
    calc (2 : ℚ) ^ ((num.log2 : Int) - den.log2 - 1) * den
        < 2 ^ ((num.log2 : Int) - den.log2 - 1) * 2 ^ ((den.log2 : Int) + 1) := by gcongr
      _ = 2 ^ (num.log2 : Int) := by rw [← zpow_add₀ (by norm_num)]; congr 1; omega
      _ ≤ num := hn
  have hhigh : (num / den : ℚ) < 2 ^ ((num.log2 : Int) - den.log2 + 1) := by
    rw [div_lt_iff₀ hdpos]
    calc (num : ℚ) < 2 ^ ((num.log2 : Int) + 1) := hn'
      _ = 2 ^ ((num.log2 : Int) - den.log2 + 1) * 2 ^ (den.log2 : Int) := by
        rw [← zpow_add₀ (by norm_num)]; congr 1; omega
      _ ≤ 2 ^ ((num.log2 : Int) - den.log2 + 1) * den := by gcongr
  unfold lastBit
  dsimp only
  -- the guess from the lengths is right or one too low
  generalize hg : max ((num.log2 : Int) - den.log2 - 53) (-1074) = guess
  obtain ⟨hs, hr⟩ := scale_ratio num hden guess
  have hspos : (0 : ℚ) < (scale num den guess).2 := by positivity
  have hcmp : Nat.pow 2 53 * (scale num den guess).2 ≤ (scale num den guess).1 ↔
      (2 : ℚ) ^ (53 + guess) ≤ num / den := by
    rw [zpow_add₀ (by norm_num), ← le_div_iff₀ (by positivity), ← hr, le_div_iff₀ hspos]
    exact_mod_cast Iff.rfl
  split
  · rename_i h
    rw [hcmp] at h
    refine ⟨by omega, lt_of_lt_of_le hhigh (zpow_le_zpow_right₀ (by norm_num) (by omega)), .inr ?_⟩
    rwa [show 52 + (guess + 1) = 53 + guess by omega]
  · rename_i h
    rw [hcmp, not_le] at h
    refine ⟨by omega, h, ?_⟩
    by_cases hmin : guess = -1074
    · exact .inl hmin
    · exact .inr ((zpow_le_zpow_right₀ (by norm_num) (by omega)).trans hlow.le)

/-! ## Between the halfway points -/

/-- How many quarters of its last bit lie between a number and the halfway point below it: the float
below a power of two is only half as far. -/
def Binary.quartersBelow (b : Binary) : Nat :=
  if b.mantissa = Nat.pow 2 52 && -1074 < b.exponent then 1 else 2

/-- A rational that rounds to a number: it lies between the halfway points to the neighbours, and at
one of them only if the mantissa is even. -/
structure Binary.Near (b : Binary) (v : ℚ) : Prop where
  low : (4 * b.mantissa - b.quartersBelow : ℚ) * 2 ^ (b.exponent - 2) ≤ v
  high : v ≤ (4 * b.mantissa + 2 : ℚ) * 2 ^ (b.exponent - 2)
  low_of_odd : b.mantissa % 2 = 1 → (4 * b.mantissa - b.quartersBelow : ℚ) * 2 ^ (b.exponent - 2) < v
  high_of_odd : b.mantissa % 2 = 1 → v < (4 * b.mantissa + 2 : ℚ) * 2 ^ (b.exponent - 2)

theorem Binary.quartersBelow_le (b : Binary) : b.quartersBelow ≤ 2 := by
  unfold quartersBelow
  split <;> omega

theorem Binary.Near.pos {b : Binary} {v : ℚ} (h : b.Near v) (hm : 0 < b.mantissa) : 0 < v := by
  refine lt_of_lt_of_le (mul_pos ?_ (by positivity)) h.low
  have hb : (b.quartersBelow : ℚ) ≤ 2 := by exact_mod_cast b.quartersBelow_le
  have hm' : (1 : ℚ) ≤ b.mantissa := by exact_mod_cast hm
  linarith

/-- A ratio in quarters rounds as the halves say. -/
theorem roundDiv_of_ratio {num den n : Nat} {w : ℚ} (hden : 0 < den) (hw : (num / den : ℚ) = w)
    (hlow : 2 * n - 1 ≤ 2 * w) (hhigh : 2 * w ≤ 2 * n + 1)
    (hodd : n % 2 = 1 → 2 * n - 1 < 2 * w ∧ 2 * w < 2 * n + 1) : roundDiv num den .toEven = n := by
  have hd : (0 : ℚ) < den := by positivity
  have hnum : (num : ℚ) = w * den := by rw [← hw]; field_simp
  refine roundDiv_eq hden ?_ ?_ fun ho => ⟨?_, ?_⟩
  · have : (2 * (n * den) : ℚ) ≤ 2 * num + den := by rw [hnum]; nlinarith
    exact_mod_cast this
  · have : (2 * num : ℚ) ≤ 2 * (n * den) + den := by rw [hnum]; nlinarith
    exact_mod_cast this
  · have : (2 * (n * den) : ℚ) < 2 * num + den := by rw [hnum]; nlinarith [(hodd ho).1]
    exact_mod_cast this
  · have : (2 * num : ℚ) < 2 * (n * den) + den := by rw [hnum]; nlinarith [(hodd ho).2]
    exact_mod_cast this

theorem quarter_mul (q : Int) : (2 : ℚ) ^ q = 4 * 2 ^ (q - 2) := by
  rw [show (4 : ℚ) = 2 ^ (2 : Int) by norm_num, ← zpow_add₀ (by norm_num), add_sub_cancel]

/-- Where the last bit of a ratio is that of the number, the ratio rounds to its mantissa. -/
theorem Binary.Near.roundDiv {b : Binary} {num den : Nat} (h : b.Near (num / den)) (hden : 0 < den) :
    Number.roundDiv (scale num den b.exponent).1 (scale num den b.exponent).2 .toEven = b.mantissa := by
  obtain ⟨hs, hr⟩ := scale_ratio num hden b.exponent
  have hb : (b.quartersBelow : ℚ) ≤ 2 := by exact_mod_cast b.quartersBelow_le
  have hp : (0 : ℚ) < 2 ^ (b.exponent - 2) := by positivity
  obtain ⟨hl, hh, hlo, hho⟩ := h
  have hw : (num / den / 2 ^ b.exponent : ℚ) * (4 * 2 ^ (b.exponent - 2)) = num / den := by
    rw [← quarter_mul]
    field_simp
  generalize (num / den / 2 ^ b.exponent : ℚ) = w at hr hw
  rw [← hw] at hl hh hlo hho
  refine roundDiv_of_ratio hs hr ?_ ?_ fun ho => ⟨?_, ?_⟩
  · by_contra hn
    nlinarith
  · by_contra hn
    nlinarith
  · by_contra hn
    nlinarith [hlo ho]
  · by_contra hn
    nlinarith [hho ho]

theorem Binary.Near.lt {b : Binary} {v : ℚ} (h : b.Near v) (hc : b.Canonical) :
    v < 2 ^ (53 + b.exponent) := by
  have hm : (b.mantissa : ℚ) + 1 ≤ 2 ^ 53 := by exact_mod_cast hc.short
  refine lt_of_le_of_lt h.high ?_
  rw [zpow_add₀ (by norm_num), quarter_mul b.exponent, ← mul_assoc]
  refine mul_lt_mul_of_pos_right ?_ (by positivity)
  norm_num at hm ⊢
  linarith

/-- A ratio near a number that is too small for its last bit is near a power of two: it has one more
bit, and rounds up to the power. -/
theorem Binary.Near.roundDiv_below {b : Binary} {num den : Nat} (h : b.Near (num / den))
    (hc : b.Canonical) (hden : 0 < den) (hq : -1074 < b.exponent)
    (hv : (num / den : ℚ) < 2 ^ (52 + b.exponent)) :
    b.mantissa = 2 ^ 52 ∧ Number.roundDiv (scale num den (b.exponent - 1)).1
      (scale num den (b.exponent - 1)).2 .toEven = 2 ^ 53 := by
  obtain ⟨hs, hr⟩ := scale_ratio num hden (b.exponent - 1)
  have hp : (0 : ℚ) < 2 ^ (b.exponent - 2) := by positivity
  have hb : (b.quartersBelow : ℚ) ≤ 2 := by exact_mod_cast b.quartersBelow_le
  have hfull : (2 : ℚ) ^ 52 ≤ b.mantissa := by
    have := hc.full
    exact_mod_cast (show 2 ^ 52 ≤ b.mantissa by omega)
  rw [zpow_add₀ (by norm_num), quarter_mul b.exponent] at hv
  have hlow := h.low
  -- only the halfway point below the power itself is so low
  have hlt : (4 * b.mantissa - b.quartersBelow : ℚ) < 4 * 2 ^ 52 := by
    by_contra hn
    rw [not_lt] at hn
    have := mul_le_mul_of_nonneg_right hn hp.le
    norm_num at this hv
    linarith
  have hm : b.mantissa = 2 ^ 52 := by
    have hle : (b.mantissa : ℚ) < 2 ^ 52 + 1 := by linarith
    have hle' : b.mantissa < 2 ^ 52 + 1 := by exact_mod_cast hle
    have hge : 2 ^ 52 ≤ b.mantissa := by exact_mod_cast hfull
    omega
  have hbelow : b.quartersBelow = 1 := by
    unfold quartersBelow
    rw [if_pos (by simp [hm, hq])]
  refine ⟨hm, roundDiv_of_ratio hs hr ?_ ?_ (by norm_num)⟩
  all_goals
    rw [show b.exponent - 1 = (b.exponent - 2) + 1 by omega, zpow_add_one₀ (by norm_num)]
    rw [hm, hbelow] at hlow
    norm_num at hlow hv ⊢
    rw [mul_div_assoc']
  · rw [le_div_iff₀ (by positivity)]
    linarith
  · rw [div_le_iff₀ (by positivity)]
    linarith

/-- Every ratio near a number rounds to its float. -/
theorem nearest_eq {b : Binary} {num den : Nat} (hc : b.Canonical) (hm : 0 < b.mantissa)
    (hden : 0 < den) (h : b.Near (num / den)) (negative : Bool) :
    nearest negative num den = ofSteps negative b.steps := by
  have hv := h.pos hm
  have hnum : 0 < num := by
    rcases Nat.eq_zero_or_pos num with rfl | hn
    · simp at hv
    · exact hn
  obtain ⟨hmin, hlt, hbits⟩ := lastBit_spec hnum hden
  have hlt' := h.lt hc
  have hone : (1 : ℚ) < 2 := by norm_num
  -- the last bit is at most that of the number
  have hle : lastBit num den ≤ b.exponent := by
    rcases hbits with he | he
    · have := hc.low
      omega
    · have := (zpow_lt_zpow_iff_right₀ hone).1 (he.trans_lt hlt')
      omega
  unfold nearest
  rw [if_neg (Nat.ne_of_gt hnum)]
  dsimp only
  rcases hle.eq_or_lt with he | he
  · rw [he, h.roundDiv hden]
    rfl
  · have hsmall : (num / den : ℚ) < 2 ^ (52 + b.exponent) :=
      hlt.trans_le (zpow_le_zpow_right₀ hone.le (by omega))
    obtain ⟨hm', hr⟩ := h.roundDiv_below hc hden (by omega) hsmall
    have hprev : lastBit num den = b.exponent - 1 := by
      have hb : (b.quartersBelow : ℚ) ≤ 2 := by exact_mod_cast b.quartersBelow_le
      have hbig : (2 : ℚ) ^ (51 + b.exponent) ≤ num / den := by
        refine le_trans ?_ h.low
        rw [zpow_add₀ (by norm_num), quarter_mul b.exponent, ← mul_assoc, hm']
        refine mul_le_mul_of_nonneg_right ?_ (by positivity)
        norm_num
        linarith
      have := (zpow_lt_zpow_iff_right₀ hone).1 (hbig.trans_lt hlt)
      omega
    rw [hprev, hr]
    refine congrArg (ofSteps negative) ?_
    simp only [Binary.steps, hm', Nat.pow_eq]
    omega

end LunchRush.Number
