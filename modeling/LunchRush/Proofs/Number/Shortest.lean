import LunchRush.Proofs.Number.Nearest
/-!
# The shortest digits lie near their float

Whatever grid the search stops at, the decimal that it found rounds to the float (`shortest_near`).
The search does stop: the last grid that is tried is finer than a quarter of the float's last bit.
-/

namespace LunchRush.Number

/-! ## Powers of ten -/

theorem ten_zpow_eq (e : Int) : (10 : ℚ) ^ e = (10 : ℚ) ^ e.toNat / 10 ^ (-e).toNat := by
  rcases le_total 0 e with h | h
  · obtain ⟨k, rfl⟩ := Int.eq_ofNat_of_zero_le h
    simp
  · obtain ⟨k, hk⟩ := Int.eq_ofNat_of_zero_le (show 0 ≤ -e by omega)
    rw [show e = -(k : Int) by omega]
    simp

/-- Ten lies between the powers of two with the exponents 93 / 28 and 196 / 59. -/
theorem ten_zpow_le {k j : Int} (hup : 196 * k ≤ 59 * j) (hdown : 93 * k ≤ 28 * j) :
    (10 : ℚ) ^ k ≤ 2 ^ j := by
  rcases le_total 0 k with h | h
  · obtain ⟨n, rfl⟩ := Int.eq_ofNat_of_zero_le h
    rw [← pow_le_pow_iff_left₀ (by positivity) (by positivity) (show 59 ≠ 0 by norm_num)]
    calc ((10 : ℚ) ^ (n : Int)) ^ 59 = (10 ^ 59) ^ n := by rw [zpow_natCast, pow_right_comm]
      _ ≤ (2 ^ 196) ^ n := by gcongr; norm_num
      _ = 2 ^ (196 * (n : Int)) := by rw [← pow_mul]; norm_cast
      _ ≤ 2 ^ (j * 59) := zpow_le_zpow_right₀ (by norm_num) (by omega)
      _ = (2 ^ j) ^ 59 := by rw [zpow_mul]; norm_cast
  · obtain ⟨n, hn⟩ := Int.eq_ofNat_of_zero_le (show 0 ≤ -k by omega)
    rw [show k = -(n : Int) by omega, ← pow_le_pow_iff_left₀ (by positivity) (by positivity)
      (show 28 ≠ 0 by norm_num)]
    calc ((10 : ℚ) ^ (-(n : Int))) ^ 28 = ((10 ^ 28) ^ n)⁻¹ := by
          rw [zpow_neg, zpow_natCast, inv_pow, pow_right_comm]
      _ ≤ ((2 ^ 93) ^ n)⁻¹ := by gcongr; norm_num
      _ = 2 ^ (-(93 * (n : Int))) := by rw [zpow_neg, ← pow_mul]; norm_cast
      _ ≤ 2 ^ (j * 28) := zpow_le_zpow_right₀ (by norm_num) (by omega)
      _ = (2 ^ j) ^ 28 := by rw [zpow_mul]; norm_cast

/-! ## The interval of a float -/

/-- The exact value of a number, without its sign. -/
def Binary.value (b : Binary) : ℚ := 4 * b.mantissa * 2 ^ (b.exponent - 2)

theorem Binary.interval_spec {b : Binary} (hm : 0 < b.mantissa) :
    0 < b.interval.denominator ∧
      (b.interval.low / b.interval.denominator : ℚ) =
        (4 * b.mantissa - b.quartersBelow) * 2 ^ (b.exponent - 2) ∧
      (b.interval.value / b.interval.denominator : ℚ) = b.value ∧
      (b.interval.high / b.interval.denominator : ℚ) =
        (4 * b.mantissa + 2) * 2 ^ (b.exponent - 2) := by
  obtain ⟨hs, hr⟩ := scale_ratio 1 Nat.one_pos (2 - b.exponent)
  have hr' : ((scale 1 1 (2 - b.exponent)).1 : ℚ) / (scale 1 1 (2 - b.exponent)).2 =
      2 ^ (b.exponent - 2) := by
    rw [hr, show b.exponent - 2 = -(2 - b.exponent) by omega, zpow_neg]
    norm_num
  have hb : b.quartersBelow ≤ 4 * b.mantissa := by
    have := b.quartersBelow_le
    omega
  have hlow : b.interval.low = (4 * b.mantissa - b.quartersBelow) * (scale 1 1 (2 - b.exponent)).1 := rfl
  have hvalue : b.interval.value = 4 * b.mantissa * (scale 1 1 (2 - b.exponent)).1 := rfl
  have hhigh : b.interval.high = (4 * b.mantissa + 2) * (scale 1 1 (2 - b.exponent)).1 := rfl
  have hden : b.interval.denominator = (scale 1 1 (2 - b.exponent)).2 := rfl
  rw [hlow, hvalue, hhigh, hden, Binary.value, ← hr']
  refine ⟨hs, ?_, ?_, ?_⟩
  · rw [Nat.cast_mul, Nat.cast_sub hb, mul_div_assoc]
    push_cast
    rfl
  · push_cast
    rw [mul_div_assoc]
  · push_cast
    rw [mul_div_assoc]

/-- A fraction compared with a decimal, both without division. -/
theorem ratio_le_iff (num : Nat) {den : Nat} (hden : 0 < den) (coefficient : Nat) (e : Int) :
    (num * Nat.pow 10 (-e).toNat ≤ coefficient * Nat.pow 10 e.toNat * den ↔
      (num / den : ℚ) ≤ coefficient * 10 ^ e) ∧
    (coefficient * Nat.pow 10 e.toNat * den ≤ num * Nat.pow 10 (-e).toNat ↔
      (coefficient * 10 ^ e : ℚ) ≤ num / den) := by
  have hd : (0 : ℚ) < den := by positivity
  have hp : (0 : ℚ) < 10 ^ (-e).toNat := by positivity
  simp only [Nat.pow_eq]
  rw [ten_zpow_eq, ← mul_div_assoc, div_le_div_iff₀ hd hp, div_le_div_iff₀ hp hd]
  exact ⟨by exact_mod_cast Iff.rfl, by exact_mod_cast Iff.rfl⟩

/-- The interval holds the decimals that round to the number. -/
theorem holds_iff {b : Binary} (hm : 0 < b.mantissa) (coefficient : Nat) (e : Int) :
    b.interval.holds coefficient e = true ↔ b.Near (coefficient * 10 ^ e) := by
  obtain ⟨hd, hl, -, hh⟩ := Binary.interval_spec hm
  obtain ⟨hlow, hlow'⟩ := ratio_le_iff b.interval.low hd coefficient e
  obtain ⟨hhigh, hhigh'⟩ := ratio_le_iff b.interval.high hd coefficient e
  rw [hl] at hlow hlow'
  rw [hh] at hhigh hhigh'
  have hclosed : b.interval.closed = (b.mantissa % 2 == 0) := rfl
  unfold Interval.holds
  dsimp only
  rw [hclosed]
  split
  · rename_i he
    have hodd : ¬ b.mantissa % 2 = 1 := by simp at he; omega
    simp only [Bool.and_eq_true, decide_eq_true_eq, hlow, hhigh']
    exact ⟨fun h => ⟨h.1, h.2, fun ho => absurd ho hodd, fun ho => absurd ho hodd⟩,
      fun h => ⟨h.low, h.high⟩⟩
  · rename_i he
    have hodd : b.mantissa % 2 = 1 := by simp at he; omega
    simp only [Bool.and_eq_true, decide_eq_true_eq, ← not_le, hlow', hhigh]
    simp only [not_le]
    exact ⟨fun h => ⟨h.1.le, h.2.le, fun _ => h.1, fun _ => h.2⟩,
      fun h => ⟨h.low_of_odd hodd, h.high_of_odd hodd⟩⟩

/-! ## The search -/

theorem onGrid?_near {b : Binary} (hm : 0 < b.mantissa) {tie : Tie} {e : Int} {c : Nat}
    (h : b.interval.onGrid? tie e = some c) : 0 < c ∧ b.Near (c * 10 ^ e) := by
  unfold Interval.onGrid? at h
  dsimp only at h
  generalize hn : b.interval.value * Nat.pow 10 (-e).toNat = num at h
  generalize hd : b.interval.denominator * Nat.pow 10 e.toNat = den at h
  have hlow := le_roundDiv num den tie
  have hhigh := roundDiv_le num den tie
  split at h
  · rename_i h1 h2
    simp only [Bool.and_eq_true, decide_eq_true_eq] at h1
    have hc : c = num / den ∨ c = num / den + 1 := by
      have := Option.some.inj h
      omega
    rcases hc with rfl | rfl
    · exact ⟨h1.1, (holds_iff hm _ e).1 h1.2⟩
    · exact ⟨Nat.succ_pos _, (holds_iff hm _ e).1 h2⟩
  · rename_i h1 h2
    simp only [Bool.and_eq_true, decide_eq_true_eq] at h1
    cases h
    exact ⟨h1.1, (holds_iff hm _ e).1 h1.2⟩
  · rename_i h1 h2
    cases h
    exact ⟨Nat.succ_pos _, (holds_iff hm _ e).1 h2⟩
  · cases h

/-- A ratio lies between its whole part and the natural after it. -/
theorem floor_bounds (num : Nat) {den : Nat} (hden : 0 < den) :
    ((num / den : Nat) : ℚ) ≤ num / den ∧ (num / den : ℚ) < (num / den : Nat) + 1 := by
  have hdpos : (0 : ℚ) < den := by exact_mod_cast hden
  have hlt : num < (num / den + 1) * den := Nat.lt_mul_of_div_lt (Nat.lt_succ_self _) hden
  constructor
  · rw [le_div_iff₀ hdpos]
    exact_mod_cast Nat.div_mul_le_self num den
  · rw [div_lt_iff₀ hdpos]
    exact_mod_cast hlt

/-- The value of a number counted in the steps of a grid. -/
theorem Binary.value_on_grid {b : Binary} (hm : 0 < b.mantissa) (e : Int) :
    0 < b.interval.denominator * Nat.pow 10 e.toNat ∧
      ((b.interval.value * Nat.pow 10 (-e).toNat : Nat) /
        (b.interval.denominator * Nat.pow 10 e.toNat : Nat) : ℚ) * 10 ^ e = b.value := by
  obtain ⟨hd, -, hvalue, -⟩ := b.interval_spec hm
  refine ⟨by rw [Nat.pow_eq]; positivity, ?_⟩
  rw [← hvalue, ten_zpow_eq]
  simp only [Nat.pow_eq]
  push_cast
  have hne : (b.interval.denominator : ℚ) ≠ 0 := by positivity
  field_simp

/-- On a grid finer than a quarter of the last bit the lower neighbour of the value is near. -/
theorem onGrid?_of_fine {b : Binary} (hm : 0 < b.mantissa) (tie : Tie) {e : Int}
    (hfine : (10 : ℚ) ^ e ≤ 2 ^ (b.exponent - 2)) : ∃ c, b.interval.onGrid? tie e = some c := by
  have hm' : (1 : ℚ) ≤ b.mantissa := by exact_mod_cast hm
  have hb : (b.quartersBelow : ℚ) ≤ 2 := by exact_mod_cast b.quartersBelow_le
  have hb' : (1 : ℚ) ≤ b.quartersBelow := by
    unfold Binary.quartersBelow
    split <;> norm_num
  have hten : (0 : ℚ) < 10 ^ e := by positivity
  have hpow : (0 : ℚ) < 2 ^ (b.exponent - 2) := by positivity
  obtain ⟨hdpos, hratio⟩ := b.value_on_grid hm e
  unfold Interval.onGrid?
  dsimp only
  generalize b.interval.value * Nat.pow 10 (-e).toNat = num at hratio ⊢
  generalize b.interval.denominator * Nat.pow 10 e.toNat = den at hdpos hratio ⊢
  obtain ⟨hfloor, hfloor'⟩ := floor_bounds num hdpos
  -- the value and its lower neighbour are less than a quarter of the last bit apart
  have hbelow : ((num / den : Nat) : ℚ) * 10 ^ e ≤ b.value := by
    rw [← hratio]
    exact mul_le_mul_of_nonneg_right hfloor hten.le
  have habove : b.value < ((num / den : Nat) : ℚ) * 10 ^ e + 10 ^ e := by
    rw [← hratio]
    nlinarith
  unfold Binary.value at hbelow habove
  have hpos : 0 < num / den := by
    by_contra hz
    rw [Nat.eq_zero_of_not_pos hz] at habove
    push_cast at habove
    nlinarith
  have hnear : b.interval.holds (num / den) e = true := by
    rw [holds_iff hm]
    refine ⟨?_, ?_, fun _ => ?_, fun _ => ?_⟩ <;> nlinarith
  rw [hnear, decide_eq_true hpos]
  cases b.interval.holds (num / den + 1) e <;> exact ⟨_, rfl⟩

theorem stripZeros_spec (fuel c : Nat) (e : Int) (hc : 0 < c) :
    0 < (stripZeros fuel c e).1 ∧
      ((stripZeros fuel c e).1 * 10 ^ (stripZeros fuel c e).2 : ℚ) = c * 10 ^ e := by
  induction fuel generalizing c e with
  | zero => exact ⟨hc, rfl⟩
  | succ fuel ih =>
    unfold stripZeros
    split
    · rename_i h
      obtain ⟨d, rfl⟩ := Nat.dvd_of_mod_eq_zero h
      rw [Nat.mul_div_cancel_left d (by norm_num)]
      obtain ⟨hpos, hval⟩ := ih d (e + 1) (by omega)
      refine ⟨hpos, hval.trans ?_⟩
      rw [zpow_add_one₀ (by norm_num)]
      push_cast
      linarith
    · exact ⟨hc, rfl⟩

/-- The search finds a near decimal if some grid that it tries is fine enough. -/
theorem search_near {b : Binary} (hm : 0 < b.mantissa) (tie : Tie) {fuel : Nat} {e : Int}
    (hfine : (10 : ℚ) ^ (e - fuel) ≤ 2 ^ (b.exponent - 2)) :
    0 < (b.interval.search tie (fuel + 1) e).1 ∧
      b.Near ((b.interval.search tie (fuel + 1) e).1 * 10 ^ (b.interval.search tie (fuel + 1) e).2) := by
  induction fuel generalizing e with
  | zero =>
    obtain ⟨c, hc⟩ := onGrid?_of_fine hm tie (by simpa using hfine)
    obtain ⟨hpos, hnear⟩ := onGrid?_near hm hc
    obtain ⟨hpos', hval⟩ := stripZeros_spec 20 c e hpos
    unfold Interval.search
    rw [hc]
    exact ⟨hpos', by rw [hval]; exact hnear⟩
  | succ fuel ih =>
    unfold Interval.search
    cases hc : b.interval.onGrid? tie e with
    | some c =>
      obtain ⟨hpos, hnear⟩ := onGrid?_near hm hc
      obtain ⟨hpos', hval⟩ := stripZeros_spec 20 c e hpos
      exact ⟨hpos', by rw [hval]; exact hnear⟩
    | none =>
      -- a grid that holds nothing is followed by one ten times finer
      refine ih ?_
      rwa [show e - 1 - (fuel : Int) = e - (fuel + 1 : Nat) by push_cast; omega]

/-- The shortest decimal of a float rounds to the float. -/
theorem shortest_near {b : Binary} (hc : b.Canonical) (hm : 0 < b.mantissa) (tie : Tie) :
    0 < (b.shortest tie).1 ∧ b.Near ((b.shortest tie).1 * 10 ^ (b.shortest tie).2) := by
  refine search_near hm tie (ten_zpow_le ?_ ?_)
  all_goals
    have hlog : b.mantissa.log2 < 53 := (Nat.log2_lt (Nat.ne_of_gt hm)).2 hc.short
    have := hc.low
    have := hc.high
    unfold Binary.topExponent
    omega

/-! ## How many digits there are -/

theorem stripZeros_le (fuel c : Nat) (e : Int) : (stripZeros fuel c e).1 ≤ c := by
  induction fuel generalizing c e with
  | zero => exact le_rfl
  | succ fuel ih =>
    unfold stripZeros
    split
    · exact (ih _ _).trans (Nat.div_le_self c 10)
    · exact le_rfl

/-- The search stops at the first grid that is fine enough, so on the grid before it ten steps are more
than a quarter of the last bit. -/
theorem search_lt {b : Binary} (hm : 0 < b.mantissa) (tie : Tie) (fuel : Nat) {e : Int}
    (he : (2 : ℚ) ^ (b.exponent - 2) < 10 ^ (e + 1)) :
    (b.interval.search tie fuel e).1 < 10 * (4 * b.mantissa + 2) := by
  have hbound : ∀ {c : Nat} {e : Int}, (2 : ℚ) ^ (b.exponent - 2) < 10 ^ (e + 1) →
      (c * 10 ^ e : ℚ) ≤ (4 * b.mantissa + 2) * 2 ^ (b.exponent - 2) → c < 10 * (4 * b.mantissa + 2) := by
    intro c e he hc
    have hten : (0 : ℚ) < 10 ^ e := by positivity
    rw [zpow_add_one₀ (by norm_num)] at he
    have hlt : (c : ℚ) < 10 * (4 * b.mantissa + 2) := by
      by_contra hge
      nlinarith [mul_le_mul_of_nonneg_right (not_lt.1 hge) hten.le]
    exact_mod_cast hlt
  induction fuel generalizing e with
  | zero =>
    obtain ⟨hpos, hratio⟩ := b.value_on_grid hm e
    obtain ⟨hfloor, -⟩ := floor_bounds (b.interval.value * Nat.pow 10 (-e).toNat) hpos
    refine hbound he ((mul_le_mul_of_nonneg_right hfloor (by positivity)).trans (hratio.le.trans ?_))
    exact mul_le_mul_of_nonneg_right (by linarith) (by positivity)
  | succ fuel ih =>
    unfold Interval.search
    cases hc : b.interval.onGrid? tie e with
    | some c =>
      exact (stripZeros_le 20 c e).trans_lt (hbound he (onGrid?_near hm hc).2.high)
    | none =>
      refine ih (not_le.1 fun hfine => ?_)
      rw [sub_add_cancel] at hfine
      obtain ⟨c, hc'⟩ := onGrid?_of_fine hm tie hfine
      rw [hc] at hc'
      cases hc'

/-- The shortest decimal has at most eighteen digits. -/
theorem shortest_lt {b : Binary} (hc : b.Canonical) (hm : 0 < b.mantissa) (tie : Tie) :
    (b.shortest tie).1 < 10 * 2 ^ 55 := by
  refine (search_lt hm tie 24 ?_).trans_le (by have := hc.short; omega)
  have hup := ten_zpow_le (k := -(b.topExponent + 1)) (j := -(b.exponent - 1)) ?_ ?_
  · rw [zpow_neg, zpow_neg, inv_le_inv₀ (by positivity) (by positivity)] at hup
    exact (zpow_lt_zpow_right₀ (by norm_num) (by omega)).trans_le hup
  all_goals
    have := hc.low
    have := hc.high
    unfold Binary.topExponent
    omega

end LunchRush.Number
