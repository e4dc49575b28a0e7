import LunchRush.Bounds
import LunchRush.Proofs.Number.Arithmetic
/-!
# Rounding to decimals

A float operation that rounds an increasing function is increasing on floats (`Placed.map`), however
the single results are rounded. So are the three steps of rounding to a number of decimals, and a
float between bounds that have no more decimals stays between them (`within_roundTo`). What has been
rounded is not moved by rounding it again (`hasDecimals_roundTo`).
-/

namespace LunchRush.Number

/-! ## Increasing operations -/

/-- A float of positive sign between two places, ends included. -/
def Placed (low high : Nat) (x : Float) : Prop := ∃ n, x = ofSteps false n ∧ low ≤ n ∧ n ≤ high

theorem isFinite_ofSteps {n : Nat} (h : (ofSteps false n).isFinite = true) : n < infinitySteps := by
  by_contra hge
  rw [isFinite_iff, toBits_ofSteps, Nat.min_eq_right (not_lt.1 hge)] at h
  exact h (by decide)

theorem isFinite_of_lt {n : Nat} (h : n < infinitySteps) : (ofSteps false n).isFinite = true := by
  rw [isFinite_iff, toBits_ofSteps, Nat.min_eq_left h.le]
  unfold infinitySteps at h
  simp only [Bool.false_eq_true, if_false]
  omega

/-- A float between two places lies between their floats. -/
theorem Placed.within {low high : Nat} {x : Float} (h : Placed low high x) :
    Bounds.within (ofSteps false low) (ofSteps false high) x = true := by
  obtain ⟨n, rfl, hl, hh⟩ := h
  simp only [Bounds.within, Bool.and_eq_true, decide_eq_true_eq, le_ofSteps_iff]
  omega

/-- On finite floats of positive sign the operation gives the exact result, rounded. -/
def RoundedTo (f : Float → Float) (g : ℚ → ℚ) : Prop :=
  ∀ n, n < infinitySteps → ∃ place, f (ofSteps false n) = ofSteps false place ∧
    Rounds (g (valueAt n)) place

/-- A rounded increasing function is increasing on floats. -/
theorem Placed.map {f : Float → Float} {g : ℚ → ℚ} (hf : RoundedTo f g) (hg : Monotone g)
    {low high : Nat} {x : Float} (hx : Placed low high x) (hfin : high < infinitySteps) :
    ∃ low' high', f (ofSteps false low) = ofSteps false low' ∧
      f (ofSteps false high) = ofSteps false high' ∧ Placed low' high' (f x) := by
  obtain ⟨n, rfl, hln, hnh⟩ := hx
  obtain ⟨k, hk, hrk⟩ := hf n (by omega)
  obtain ⟨low', hl, hrl⟩ := hf low (by omega)
  obtain ⟨high', hh, hrh⟩ := hf high hfin
  exact ⟨low', high', hl, hh, k, hk, hrl.le_of_le hrk (hg (valueAt_mono hln)),
    hrk.le_of_le hrh (hg (valueAt_mono hnh))⟩

theorem valueAt_nonneg (n : Nat) : 0 ≤ valueAt n := mul_nonneg (Nat.cast_nonneg _) (ulp_pos _).le

theorem roundedTo_mul {c : Nat} (hc : c < infinitySteps) :
    RoundedTo (· * ofSteps false c) (· * valueAt c) :=
  fun _ hn => mul_ofSteps hn hc

theorem roundedTo_div {c : Nat} (hc : c < infinitySteps) (hpos : 0 < c) :
    RoundedTo (· / ofSteps false c) (· / valueAt c) :=
  fun _ hn => div_ofSteps hn hc hpos

theorem ofNat_ofSteps (n : Nat) : ∃ place, ofNat n = ofSteps false place ∧ Rounds n place := by
  obtain ⟨place, hp, hr⟩ := nearest_ofSteps n one_pos
  exact ⟨place, hp, by simpa using hr⟩

theorem roundedTo_roundAway : RoundedTo roundAway fun v => ⌊v + 1 / 2⌋₊ := fun n hn => by
  rw [roundAway_ofSteps hn]
  exact ofNat_ofSteps _

/-! ## A number of decimals -/

/-- What is scaled when a float up to `high` is rounded stays finite. -/
structure Scales (decimals : Int) (factor high : Nat) : Prop where
  factor_eq : powerOfTen decimals = ofSteps false factor
  factor_pos : 0 < factor
  factor_finite : factor < infinitySteps
  finite : high < infinitySteps
  scaled : (ofSteps false high * powerOfTen decimals).isFinite = true
  whole : (roundAway (ofSteps false high * powerOfTen decimals)).isFinite = true

/-- Rounding to decimals is increasing on floats. -/
theorem Placed.roundTo {decimals : Int} {factor low high : Nat} {x : Float}
    (hs : Scales decimals factor high) (hx : Placed low high x) :
    ∃ low' high', Number.roundTo (ofSteps false low) decimals = ofSteps false low' ∧
      Number.roundTo (ofSteps false high) decimals = ofSteps false high' ∧
      Placed low' high' (Number.roundTo x decimals) := by
  have hscaled := hs.scaled
  have hwhole := hs.whole
  simp only [Number.roundTo]
  rw [hs.factor_eq] at hscaled hwhole ⊢
  obtain ⟨l, h, hl, hh, hp⟩ := hx.map (roundedTo_mul hs.factor_finite)
    (fun _ _ h => mul_le_mul_of_nonneg_right h (valueAt_nonneg _)) hs.finite
  rw [hh] at hscaled hwhole
  obtain ⟨l', h', hl', hh', hp'⟩ := hp.map roundedTo_roundAway
    (fun _ _ h => by exact_mod_cast Nat.floor_mono (by linarith)) (isFinite_ofSteps hscaled)
  rw [hh'] at hwhole
  obtain ⟨l'', h'', hl'', hh'', hp''⟩ := hp'.map (roundedTo_div hs.factor_finite hs.factor_pos)
    (fun _ _ h => div_le_div_of_nonneg_right h (valueAt_nonneg _)) (isFinite_ofSteps hwhole)
  exact ⟨l'', h'', by rw [hl, hl', hl''], by rw [hh, hh', hh''], hp''⟩

/-- Between bounds that rounding does not move a rounded float stays between them. -/
theorem within_roundTo {decimals : Int} {factor low high : Nat} {x : Float}
    (hs : Scales decimals factor high) (hx : Placed low high x)
    (hl : roundTo (ofSteps false low) decimals = ofSteps false low)
    (hh : roundTo (ofSteps false high) decimals = ofSteps false high) :
    Bounds.within (ofSteps false low) (ofSteps false high) (roundTo x decimals) = true := by
  obtain ⟨low', high', hl', hh', hp⟩ := hx.roundTo hs
  rw [← hl, ← hh, hl', hh']
  exact hp.within

/-- The last bits of numbers up to `top` and of their quotients by a scale, `2 ^ (wide - 1074)` and
`2 ^ (narrow - 1074)`, are too short for what is lost by rounding to come to a half. -/
structure Separates (factor top narrow wide : Nat) : Prop where
  factor_pos : 0 < factor
  factor_finite : factor < infinitySteps
  short : top < 2 ^ 53
  bits : narrow < 2045 ∧ wide < 2045
  quotient : top / valueAt factor < 2 ^ 53 * ulp narrow
  product : top + valueAt factor * ulp narrow < 2 ^ 53 * ulp wide
  small : valueAt factor * ulp narrow + ulp wide < 1

theorem Separates.top_lt {factor top narrow wide : Nat} (h : Separates factor top narrow wide) :
    (top : ℚ) < 2 ^ 53 * ulp wide := by
  have := mul_nonneg (valueAt_nonneg factor) (ulp_pos narrow).le
  linarith [h.product]

theorem Separates.quotient_lt {factor top narrow wide k : Nat}
    (h : Separates factor top narrow wide) (hk : k ≤ top) :
    k / valueAt factor < 2 ^ 53 * ulp narrow :=
  (div_le_div_of_nonneg_right (by exact_mod_cast hk) (valueAt_nonneg _)).trans_lt h.quotient

theorem Separates.div_ofSteps {factor top narrow wide k : Nat}
    (h : Separates factor top narrow wide) (hk : k ≤ top) :
    ∃ l, l < infinitySteps ∧ ofNat k / ofSteps false factor = ofSteps false l ∧
      Rounds (k / valueAt factor) l := by
  obtain ⟨p, hp, hrp⟩ := ofNat_ofSteps k
  have hval : valueAt p = k := hrp.exact (hk.trans h.short.le)
  have hfin := hrp.lt_infinitySteps ((by exact_mod_cast hk : (k : ℚ) ≤ top).trans_lt h.top_lt) h.bits.2
  obtain ⟨l, hl, hrl⟩ := Number.div_ofSteps hfin h.factor_finite h.factor_pos
  rw [hval] at hrl
  exact ⟨l, hrl.lt_infinitySteps (h.quotient_lt hk) h.bits.1, by rw [hp, hl], hrl⟩

/-- A quotient of a whole number by a scale gives the number back when it is scaled again and
rounded: the two roundings together move it by less than a half. -/
theorem Separates.roundAway_scaled {factor top narrow wide k : Nat}
    (h : Separates factor top narrow wide) (hk : k ≤ top) :
    roundAway (ofNat k / ofSteps false factor * ofSteps false factor) = ofNat k := by
  have hkq : (k : ℚ) ≤ top := by exact_mod_cast hk
  have hF : 0 < valueAt factor :=
    mul_pos (by exact_mod_cast (mantissaAt_pos_iff factor).2 h.factor_pos) (ulp_pos _)
  obtain ⟨l, hfin, hl, hrl⟩ := h.div_ofSteps hk
  obtain ⟨q, hq, hrq⟩ := mul_ofSteps hfin h.factor_finite
  have hscaled : 2 * |valueAt l * valueAt factor - k| ≤ valueAt factor * ulp narrow := by
    have herr := mul_le_mul_of_nonneg_left (hrl.error (h.quotient_lt hk)) hF.le
    rwa [← mul_assoc, mul_comm (valueAt factor) 2, mul_assoc, ← abs_of_pos hF, ← abs_mul,
      abs_of_pos hF, mul_sub, mul_div_cancel₀ _ hF.ne', mul_comm (valueAt factor) (valueAt l)] at herr
  have hlt : valueAt l * valueAt factor < 2 ^ 53 * ulp wide := by
    have := le_abs_self (valueAt l * valueAt factor - k)
    linarith [mul_pos hF (ulp_pos narrow), h.product]
  have herr := hrq.error hlt
  have hfloor : ⌊valueAt q + 1 / 2⌋₊ = k := by
    have hsmall := h.small
    have h₁ := abs_le.1 (show |valueAt q - valueAt l * valueAt factor| ≤ ulp wide / 2 by linarith)
    have h₂ := abs_le.1
      (show |valueAt l * valueAt factor - k| ≤ valueAt factor * ulp narrow / 2 by linarith)
    rw [Nat.floor_eq_iff (by linarith [valueAt_nonneg q])]
    constructor <;> linarith
  rw [hl, hq, roundAway_ofSteps (hrq.lt_infinitySteps hlt h.bits.2), hfloor]

/-- A finite float does not differ from itself. -/
theorem abs_sub_self_lt {n : Nat} (h : n < infinitySteps) :
    (ofSteps false n - ofSteps false n).abs < 1e-9 := by
  obtain ⟨place, hp, hr⟩ := sub_ofSteps h le_rfl
  rw [sub_self] at hr
  rw [hp, hr.unique rounds_zero]
  decide +kernel

/-- A scaled float is rounded to a whole number that is as small. -/
theorem Separates.whole_le {factor top narrow wide n : Nat} (h : Separates factor top narrow wide)
    (hn : n < infinitySteps) (hle : valueAt n * valueAt factor ≤ top) :
    ∃ k ≤ top, roundAway (ofSteps false n * ofSteps false factor) = ofNat k := by
  obtain ⟨q, hq, hrq⟩ := mul_ofSteps hn h.factor_finite
  have hfin := hrq.lt_infinitySteps (hle.trans_lt h.top_lt) h.bits.2
  refine ⟨_, ?_, by rw [hq, roundAway_ofSteps hfin]⟩
  obtain ⟨t, ht⟩ := exists_valueAt_eq h.short.le
  have hqt : valueAt q ≤ top := ht ▸ valueAt_mono (hrq.le_place (hle.trans ht.ge))
  rw [← Nat.lt_succ_iff, Nat.floor_lt (by linarith [valueAt_nonneg q])]
  push_cast
  linarith

/-- What has been rounded to decimals has no more of them. -/
theorem hasDecimals_roundTo {decimals : Int} {factor low high top narrow wide : Nat} {x : Float}
    (hs : Scales decimals factor high) (ht : Separates factor top narrow wide)
    (hhigh : valueAt high * valueAt factor ≤ top) (hx : Placed low high x) :
    hasDecimals (roundTo x decimals) decimals = true := by
  obtain ⟨n, rfl, -, hn⟩ := hx
  have hle : valueAt n * valueAt factor ≤ top :=
    (mul_le_mul_of_nonneg_right (valueAt_mono hn) (valueAt_nonneg _)).trans hhigh
  obtain ⟨k, hk, hround⟩ := ht.whole_le (hn.trans_lt hs.finite) hle
  obtain ⟨l, hfin, hl, -⟩ := ht.div_ofSteps hk
  simp only [hasDecimals, Number.roundTo, hs.factor_eq, hround, ht.roundAway_scaled hk,
    decide_eq_true_eq]
  rw [hl]
  exact abs_sub_self_lt hfin

end LunchRush.Number
