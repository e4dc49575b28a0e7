import LunchRush.Proofs.Number.Decimals
import LunchRush.Proofs.Random.Draws
import LunchRush.Random.Real
/-!
# What draws of floats yield

The factor of a span is taken down until its last step does not pass the upper end, and no step
passes the last one, as every operation on the way rounds an increasing function (`exists_span`). So a
float that is drawn from a range lies in it, whatever the words are (`uniform_yields`).
-/

namespace LunchRush.Random

open Number

/-! ## Steps of a span -/

theorem valueAt_one : valueAt (1023 * 2 ^ 52) = 1 := valueAt_two_pow 0

/-- The fractions of 52 bits have places up to the last one, which lies between a half and one. -/
theorem exists_lastFraction : ∃ last, lastFraction = ofSteps false last ∧ valueAt last ≤ 1 ∧
    1 / 2 ≤ valueAt last ∧ last < infinitySteps ∧ 0 < last ∧
    ∀ k ≤ 2 ^ 52 - 1, ∃ n ≤ last, nearest false k (Nat.pow 2 52) = ofSteps false n := by
  obtain ⟨last, hl, hrl⟩ := nearest_ofSteps (Nat.pow 2 52 - 1) (by decide : 0 < Nat.pow 2 52)
  have hhalf : valueAt (1022 * 2 ^ 52) = 1 / 2 := by
    norm_num [valueAt, mantissaAt, doublings, ulp]
  have hle : last ≤ 1023 * 2 ^ 52 := hrl.le_place (by rw [valueAt_one]; norm_num)
  have hge : 1022 * 2 ^ 52 ≤ last := hrl.place_le (by rw [hhalf]; norm_num)
  refine ⟨last, hl, valueAt_one ▸ valueAt_mono hle, hhalf ▸ valueAt_mono hge, ?_, ?_, fun k hk => ?_⟩
  · unfold infinitySteps
    omega
  · omega
  · obtain ⟨n, hn, hrn⟩ := nearest_ofSteps k (by decide : 0 < Nat.pow 2 52)
    refine ⟨n, hrn.le_of_le hrl ?_, hn⟩
    gcongr
    exact hk

/-- Where the step of a fraction leads from the lower end. -/
def StepsTo (low factor fraction place : Nat) : Prop :=
  ∃ step ≤ factor, Rounds (valueAt fraction * valueAt factor) step ∧
    Rounds (valueAt step + valueAt low) place

theorem StepsTo.low_le {low factor fraction place : Nat} (h : StepsTo low factor fraction place) :
    low ≤ place := by
  obtain ⟨step, -, -, hr⟩ := h
  exact hr.place_le (by linarith [valueAt_nonneg step])

theorem StepsTo.le_of_le {low factor n k place place' : Nat} (h : StepsTo low factor n place)
    (h' : StepsTo low factor k place') (hle : n ≤ k) : place ≤ place' := by
  obtain ⟨step, -, hs, hr⟩ := h
  obtain ⟨step', -, hs', hr'⟩ := h'
  have hstep := hs.le_of_le hs' (mul_le_mul_of_nonneg_right (valueAt_mono hle) (valueAt_nonneg _))
  exact hr.le_of_le hr' (by linarith [valueAt_mono hstep])

theorem StepsTo.unique {low factor n place place' : Nat} (h : StepsTo low factor n place)
    (h' : StepsTo low factor n place') : place = place' :=
  Nat.le_antisymm (h.le_of_le h' le_rfl) (h'.le_of_le h le_rfl)

/-- No fraction leads nowhere. -/
theorem StepsTo.of_zero {low factor place : Nat} (h : StepsTo low factor 0 place) : place = low := by
  obtain ⟨step, -, hs, hr⟩ := h
  rw [valueAt_zero, zero_mul] at hs
  rw [hs.unique rounds_zero, valueAt_zero, zero_add] at hr
  exact hr.unique (.self low)

theorem exists_stepsTo {low factor n : Nat} (hl : low < infinitySteps) (hf : factor < infinitySteps)
    (hn : n < infinitySteps) (hone : valueAt n ≤ 1) :
    ∃ place, ofSteps false n * ofSteps false factor + ofSteps false low = ofSteps false place ∧
      ofSteps false factor * ofSteps false n + ofSteps false low = ofSteps false place ∧
      StepsTo low factor n place := by
  obtain ⟨step, hs, hrs⟩ := mul_ofSteps hn hf
  obtain ⟨step', hs', hrs'⟩ := mul_ofSteps hf hn
  rw [mul_comm] at hrs'
  obtain rfl := hrs.unique hrs'
  have hle : step ≤ factor :=
    hrs.le_place (mul_le_of_le_one_left (valueAt_nonneg _) hone)
  obtain ⟨place, hp, hrp⟩ := add_ofSteps (hle.trans_lt hf) hl
  exact ⟨place, by rw [hs, hp], by rw [hs', hp], step, hle, hrs, hrp⟩

/-! ## The factor -/

theorem below_ofSteps {n : Nat} (h : n + 1 ≤ infinitySteps) :
    below (ofSteps false (n + 1)) = ofSteps false n := by
  have hb := toBits_ofSteps false (n + 1)
  rw [Nat.min_eq_left h] at hb
  refine congrArg Float.ofBits (UInt64.toNat_inj.1 ?_)
  have htop : infinitySteps < 2 ^ 63 := by decide
  rw [UInt64.toNat_sub, hb, UInt64.toNat_ofNat_of_lt']
  · change (2 ^ 64 - 1 + (n + 1 + 0)) % 2 ^ 64 = min n infinitySteps + 0
    omega
  · change min n infinitySteps + 0 < 2 ^ 64
    omega

/-- The shortened factor does not pass the upper end with the last fraction. -/
theorem shorten_ofSteps {low high last : Nat} (hle : low ≤ high) (hhigh : high < infinitySteps)
    (hlast : lastFraction = ofSteps false last) (hfin : last < infinitySteps)
    (hone : valueAt last ≤ 1) (factor : Nat) (hf : factor < infinitySteps) :
    ∃ factor' < infinitySteps, ∃ place ≤ high,
      shorten (ofSteps false low) (ofSteps false high) factor (ofSteps false factor) =
        ofSteps false factor' ∧ StepsTo low factor' last place := by
  have hlow := hle.trans_lt hhigh
  -- the fuel is the place of the factor, so that none is left only for zero
  induction factor with
  | zero =>
    obtain ⟨place, hp, -, hstep⟩ := exists_stepsTo hlow hf hfin hone
    obtain ⟨step, hs, -, hr⟩ := id hstep
    obtain rfl : step = 0 := by omega
    rw [valueAt_zero, zero_add] at hr
    refine ⟨0, hf, place, ?_, rfl, hstep⟩
    exact (hr.le_place le_rfl).trans hle
  | succ factor ih =>
    unfold shorten
    rw [hlast]
    obtain ⟨place, -, hp, hstep⟩ := exists_stepsTo hlow hf hfin hone
    rw [hp, below_ofSteps hf.le]
    split
    · exact ih (by omega)
    · rename_i hlt
      rw [lt_ofSteps_iff] at hlt
      exact ⟨factor + 1, hf, place, by omega, rfl, hstep⟩

/-! ## The draw -/

/-- A range up to 2^64 can be measured. -/
theorem measured_isFinite {low high : Nat} (hle : low ≤ high) (hhigh : valueAt high ≤ 2 ^ 64)
    (hfin : high < infinitySteps) :
    ((ofSteps false high - ofSteps false low) / lastFraction).isFinite = true := by
  obtain ⟨last, hlast, -, hhalf, hlfin, hpos, -⟩ := exists_lastFraction
  obtain ⟨d, hd, hrd⟩ := sub_ofSteps hfin hle
  have hdle : d ≤ high := hrd.le_place (by linarith [valueAt_nonneg low])
  obtain ⟨factor, hf, hrf⟩ := div_ofSteps (hdle.trans_lt hfin) hlfin hpos
  rw [hlast, hd, hf]
  refine isFinite_of_lt (hrf.lt_infinitySteps ?_ (show 1087 < 2045 by decide))
  have hulp : ulp 1087 = 2 ^ 13 := by norm_num [ulp]
  rw [hulp, div_lt_iff₀ (by linarith)]
  linarith [valueAt_mono hdle]

/-- Where the length of a range can be measured, zero leads to its lower end and no word leads
further than the greatest one, which does not lead past the upper end. -/
theorem exists_span {low high : Nat} (hle : low ≤ high) (hhigh : high < infinitySteps)
    (hfin : ((ofSteps false high - ofSteps false low) / lastFraction).isFinite = true) :
    ∃ span top, Span.of (ofSteps false low) (ofSteps false high) = .ok span ∧ top ≤ high ∧
      span.at 0 = ofSteps false low ∧ span.at (Nat.pow 2 64 - 1) = ofSteps false top ∧
      ∀ word < Nat.pow 2 64, Placed low top (span.at word) := by
  obtain ⟨last, hlast, hone, -, hlfin, hpos, hfraction⟩ := exists_lastFraction
  obtain ⟨d, hd, hrd⟩ := sub_ofSteps hhigh hle
  have hdfin : d < infinitySteps :=
    (hrd.le_place (by linarith [valueAt_nonneg low])).trans_lt hhigh
  obtain ⟨factor, hf, -⟩ := div_ofSteps hdfin hlfin hpos
  rw [hd, hlast, hf] at hfin
  have hffin := isFinite_ofSteps hfin
  obtain ⟨factor', hffin', top, htop, hshort, hstep⟩ :=
    shorten_ofSteps hle hhigh hlast hlfin hone factor hffin
  have hlow := hle.trans_lt hhigh
  have hspan : Span.of (ofSteps false low) (ofSteps false high) =
      .ok ⟨ofSteps false low, ofSteps false factor'⟩ := by
    have hbits : (ofSteps false factor).toBits.toNat = factor := by
      rw [toBits_ofSteps, Nat.min_eq_left hffin.le]
      rfl
    have hord : ofSteps false low ≤ ofSteps false high := by
      rw [le_ofSteps_iff]
      omega
    unfold Span.of
    simp [hord, hd, hlast, hf, hfin, hbits, hshort]
  -- where a fraction leads
  have hat : ∀ word n, n ≤ last →
      nearest false (word / Nat.pow 2 12) (Nat.pow 2 52) = ofSteps false n →
      ∃ place, Span.at ⟨ofSteps false low, ofSteps false factor'⟩ word = ofSteps false place ∧
        StepsTo low factor' n place := by
    intro word n hn hfrac
    obtain ⟨place, hp, -, hstep⟩ := exists_stepsTo hlow hffin' (hn.trans_lt hlfin)
      ((valueAt_mono hn).trans hone)
    exact ⟨place, by rw [Span.at, hfrac, hp], hstep⟩
  refine ⟨_, top, hspan, htop, ?_, ?_, ?_⟩
  · obtain ⟨place, hp, hzero⟩ := hat 0 0 (Nat.zero_le _) rfl
    rw [hp, hzero.of_zero]
  · have hword : (Nat.pow 2 64 - 1) / Nat.pow 2 12 = Nat.pow 2 52 - 1 := by decide
    obtain ⟨place, hp, hgreatest⟩ := hat (Nat.pow 2 64 - 1) last le_rfl (hword ▸ hlast)
    rw [hp, hgreatest.unique hstep]
  · intro word hword
    obtain ⟨n, hn, hfrac⟩ := hfraction (word / Nat.pow 2 12) (by
      simp only [Nat.pow_eq] at hword ⊢
      omega)
    obtain ⟨place, hp, hstep'⟩ := hat word n hn hfrac
    exact ⟨place, hp, hstep'.low_le, hstep'.le_of_le hstep hn⟩

variable {σ : Type} [Source σ]

theorem uniform_of_span {low high : Float} {span : Span} (h : Span.of low high = .ok span) :
    (uniform low high : Draw σ Float) = word64 >>= fun word => pure (span.at word) := by
  unfold uniform
  rw [h]
  rfl

/-- A float of a range lies in it, if the length of the range can be measured. -/
theorem uniform_yields {low high : Nat} (hle : low ≤ high) (hhigh : high < infinitySteps)
    (hfin : ((ofSteps false high - ofSteps false low) / lastFraction).isFinite = true) :
    Yields (uniform (ofSteps false low) (ofSteps false high) : Draw σ Float) (Placed low high) := by
  obtain ⟨span, top, hspan, htop, -, -, hplaced⟩ := exists_span hle hhigh hfin
  rw [uniform_of_span hspan]
  refine word64_yields.bind fun word hword => .pure ?_
  obtain ⟨place, hp, hlow, hle⟩ := hplaced word hword
  exact ⟨place, hp, hlow, hle.trans htop⟩

end LunchRush.Random
