import LunchRush.Proofs.Json.Floats
/-!
# Numerals that are read as the nearest float

The reader multiplies or divides the digits of a numeral by a power of ten, each of which may have been
rounded before. Where the digits make a number below 2^53 and the power is at most the 22nd, both are
floats, and what is rounded is the decimal itself: the numeral is read as the nearest float
(`Numeral.isExact_of_short`).
-/

namespace LunchRush

namespace Number

/-! ## Products of floats that are floats -/

/-- A number with few bits times a power of two is a float. -/
theorem exists_valueAt_mul {m : Nat} (hpos : 0 < m) (hm : m ≤ 2 ^ 53) (k : Nat) :
    ∃ steps, valueAt steps = m * 2 ^ k := by
  obtain ⟨steps, hs⟩ := exists_valueAt_eq hm
  obtain ⟨hlt, hfull, hsteps⟩ := mantissaAt_spec steps
  have hnormal : 2 ^ 52 ≤ mantissaAt steps := by
    refine hfull.resolve_left fun h0 => ?_
    -- the floats of the least exponent are below one
    have hone : (1 : ℚ) ≤ valueAt steps := by rw [hs]; exact_mod_cast hpos
    have hulp : ulp 0 ≤ 1 / 2 ^ 54 := by
      unfold ulp
      calc (2 : ℚ) ^ (((0 : Nat) : Int) - 1074) ≤ 2 ^ (-54 : Int) :=
            zpow_le_zpow_right₀ (by norm_num) (by norm_num)
        _ = 1 / 2 ^ 54 := by norm_num
    have hlt' : (mantissaAt steps : ℚ) ≤ 2 ^ 53 := by exact_mod_cast hlt.le
    rw [valueAt, h0] at hone
    have : (mantissaAt steps : ℚ) * ulp 0 ≤ 2 ^ 53 * (1 / 2 ^ 54) :=
      mul_le_mul hlt' hulp (ulp_pos 0).le (by positivity)
    norm_num at this
    linarith
  refine ⟨(doublings steps + k) * 2 ^ 52 + mantissaAt steps, ?_⟩
  rw [valueAt_fields hlt.le (.inr hnormal), ulp_add, ← hs, valueAt]
  ring

/-- Such a number is rounded to itself. -/
theorem Rounds.exact_mul {m k place : Nat} (hpos : 0 < m) (hm : m ≤ 2 ^ 53)
    (h : Rounds (m * 2 ^ k) place) : valueAt place = m * 2 ^ k := by
  obtain ⟨steps, hs⟩ := exists_valueAt_mul hpos hm k
  have hself := Rounds.self steps
  rw [hs] at hself
  rw [h.unique hself, hs]

theorem lt_infinity_of_lt {v : ℚ} {n : Nat} (h : Rounds v n) (hv : v < 2 ^ 128) : n < infinitySteps := by
  refine h.lt_infinitySteps (j := 1149) (hv.trans_eq ?_) (by norm_num)
  norm_num [ulp]

/-! ## Signs -/

theorem Unpacked.neg {n : Nat} {u : Float.Model.UnpackedFloat} (h : Unpacked false n u) :
    Unpacked true n u.neg := by
  cases h with
  | zero h => exact .zero h
  | finite h hlt => exact .finite h hlt
  | infinity h => exact .infinity h

theorem neg_ofSteps (n : Nat) : -ofSteps false n = ofSteps true n :=
  (unpacked_ofSteps false n).neg.packed

/-- The nearest float of a negative number is that of the positive one with a minus sign. -/
theorem nearest_neg (num den : Nat) : nearest true num den = -nearest false num den := by
  by_cases h : num = 0
  · rw [nearest, nearest, if_pos h, if_pos h, neg_ofSteps]
  · rw [nearest, nearest, if_neg h, if_neg h]
    exact (neg_ofSteps _).symm

theorem nearest_sign (negative : Bool) (num den : Nat) :
    nearest negative num den = if negative then -nearest false num den else nearest false num den := by
  cases negative with
  | false => exact (if_neg Bool.false_ne_true).symm
  | true => exact (nearest_neg num den).trans (if_pos (Eq.refl true)).symm

end Number

namespace Json

open LunchRush.Number

/-! ## Short numerals -/

/-- The decimal that a numeral stands for. -/
def Numeral.decimal (n : Numeral) : Decimal := ⟨n.negative, n.significand, n.scale⟩

/-- The float that a numeral stands for is the nearest one. -/
def Numeral.Denotes (n : Numeral) (x : Float) : Prop := n.decimal.toFloat = x

/-- Whether a numeral is read as the float that it stands for. -/
def Numeral.IsExact (n : Numeral) : Prop := n.float? = some n.decimal.toFloat

/-- A numeral with few digits in places near the point. -/
structure Numeral.IsShort (n : Numeral) : Prop where
  significand : n.significand < 2 ^ 53
  scale : n.scale.natAbs ≤ 22

instance (n : Numeral) : Decidable n.IsShort :=
  decidable_of_iff (n.significand < 2 ^ 53 ∧ n.scale.natAbs ≤ 22)
    ⟨fun h => ⟨h.1, h.2⟩, fun h => ⟨h.significand, h.scale⟩⟩

theorem toFloat_exact {c : Nat} (hc : c < 2 ^ 53) :
    ∃ n < infinitySteps, (UInt64.ofNat c).toFloat = ofSteps false n ∧ valueAt n = c := by
  obtain ⟨n, hn, hr⟩ := toFloat_ofSteps (UInt64.ofNat c)
  rw [UInt64.toNat_ofNat_of_lt' (show c < 2 ^ 64 by omega)] at hr
  refine ⟨n, lt_infinity_of_lt hr ?_, hn, hr.exact hc.le⟩
  exact_mod_cast (show c < 2 ^ 128 by omega)

/-- The powers of ten up to the 22nd are floats. -/
theorem ten_exact {k : Nat} (hk : k ≤ 22) :
    ∃ n < infinitySteps, nearest false (Nat.pow 10 k) 1 = ofSteps false n ∧ valueAt n = 10 ^ k := by
  obtain ⟨n, hn, hr⟩ := nearest_ofSteps (Nat.pow 10 k) one_pos
  have hfive : 5 ^ k ≤ 2 ^ 53 := (Nat.pow_le_pow_right (by norm_num) hk).trans (by norm_num)
  have hsplit : ((Nat.pow 10 k : Nat) : ℚ) / (1 : Nat) = (5 ^ k : Nat) * 2 ^ k := by
    rw [Nat.cast_one, div_one]
    push_cast
    rw [← mul_pow]
    norm_num
  rw [hsplit] at hr
  refine ⟨n, lt_infinity_of_lt hr ?_, hn, ?_⟩
  · have htwo : (2 : ℚ) ^ k ≤ 2 ^ 22 := pow_le_pow_right₀ (by norm_num) hk
    have hfive : ((5 ^ k : Nat) : ℚ) ≤ 2 ^ 53 := by exact_mod_cast hfive
    calc ((5 ^ k : Nat) : ℚ) * 2 ^ k ≤ 2 ^ 53 * 2 ^ 22 :=
          mul_le_mul hfive htwo (by positivity) (by positivity)
      _ < 2 ^ 128 := by norm_num
  · rw [hr.exact_mul (by positivity) hfive]
    push_cast
    rw [← mul_pow]
    norm_num

/-- A number below 2^53 times such a power is rounded once. -/
theorem scaledBy_mul {c k : Nat} (hc : c < 2 ^ 53) (hk : k ≤ 22) (fuel : Nat) :
    scaledBy (fuel + 1) (UInt64.ofNat c).toFloat k = some (nearest false (c * Nat.pow 10 k) 1) := by
  obtain ⟨x, hx, hxe, hxv⟩ := toFloat_exact hc
  obtain ⟨p, hp, hpe, hpv⟩ := ten_exact hk
  obtain ⟨n, hn, hr⟩ := mul_ofSteps hx hp
  obtain ⟨n', hn', hr'⟩ := nearest_ofSteps (c * Nat.pow 10 k) one_pos
  rw [hxv, hpv] at hr
  have hsame : n = n' := hr.unique (by convert hr' using 1; push_cast [Nat.pow_eq]; ring)
  have hlt : n < infinitySteps := by
    refine lt_infinity_of_lt hr ?_
    have hc : (c : ℚ) ≤ 2 ^ 53 := by exact_mod_cast hc.le
    have hten : (10 : ℚ) ^ k ≤ 10 ^ 22 := pow_le_pow_right₀ (by norm_num) hk
    calc (c : ℚ) * 10 ^ k ≤ 2 ^ 53 * 10 ^ 22 := mul_le_mul hc hten (by positivity) (by positivity)
      _ < 2 ^ 128 := by norm_num
  unfold scaledBy
  simp only [Int.natAbs_natCast, hxe, hpe, hn, isInf_ofSteps hlt]
  rw [if_pos (by omega), if_pos (by omega), hn', hsame]
  rfl

theorem scaledBy_div {c k : Nat} (hc : c < 2 ^ 53) (hk : k ≤ 22) (hpos : 0 < k) (fuel : Nat) :
    scaledBy (fuel + 1) (UInt64.ofNat c).toFloat (-k) = some (nearest false c (Nat.pow 10 k)) := by
  obtain ⟨x, hx, hxe, hxv⟩ := toFloat_exact hc
  obtain ⟨p, hp, hpe, hpv⟩ := ten_exact hk
  have hppos : 0 < p := Nat.pos_of_ne_zero fun h => by
    rw [h, valueAt_zero] at hpv
    exact absurd hpv.symm (by positivity)
  obtain ⟨n, hn, hr⟩ := div_ofSteps hx hp hppos
  obtain ⟨n', hn', hr'⟩ := nearest_ofSteps c (show 0 < Nat.pow 10 k from Nat.pow_pos (by norm_num))
  rw [hxv, hpv] at hr
  have hsame : n = n' := hr.unique (by convert hr' using 1; push_cast [Nat.pow_eq]; rfl)
  unfold scaledBy
  simp only [Int.natAbs_neg, Int.natAbs_natCast, hxe, hpe, hn]
  rw [if_pos (by omega), if_neg (by omega), hn', hsame]

/-- The nearest float of a decimal with few digits near the point is a quotient of naturals. -/
theorem toFloat_of_short {d : Decimal} (hc : d.coefficient < 2 ^ 53) (hk : d.exponent.natAbs ≤ 22) :
    d.toFloat = if 0 ≤ d.exponent
      then nearest d.negative (d.coefficient * Nat.pow 10 d.exponent.toNat) 1
      else nearest d.negative d.coefficient (Nat.pow 10 (-d.exponent).toNat) := by
  unfold Decimal.toFloat
  by_cases h0 : d.coefficient = 0
  · rw [if_pos h0, h0, Nat.zero_mul]
    split <;> rw [nearest, if_pos rfl]
  · rw [if_neg h0, if_neg (by omega), if_neg (by omega)]

/-- Few digits near the point are scaled to the nearest float. -/
theorem scaledBy_of_short {c : Nat} {e : Int} (hc : c < 2 ^ 53) (he : e.natAbs ≤ 22) (fuel : Nat) :
    scaledBy (fuel + 1) (UInt64.ofNat c).toFloat e = some (Decimal.mk false c e).toFloat := by
  rw [toFloat_of_short (d := ⟨false, c, e⟩) hc he]
  dsimp only
  split
  · rename_i h
    obtain ⟨k, rfl⟩ := Int.eq_ofNat_of_zero_le h
    exact scaledBy_mul hc (by simpa using he) fuel
  · rename_i h
    obtain ⟨k, hk⟩ := Int.eq_ofNat_of_zero_le (show 0 ≤ -e by omega)
    obtain rfl : e = -k := by omega
    rw [Int.neg_neg, Int.toNat_natCast]
    exact scaledBy_div hc (by omega) (by omega) fuel

theorem toFloat_sign (negative : Bool) {c : Nat} {e : Int} (hc : c < 2 ^ 53) (he : e.natAbs ≤ 22) :
    (Decimal.mk negative c e).toFloat =
      if negative then -(Decimal.mk false c e).toFloat else (Decimal.mk false c e).toFloat := by
  rw [toFloat_of_short (d := ⟨negative, c, e⟩) hc he, toFloat_of_short (d := ⟨false, c, e⟩) hc he]
  dsimp only
  split
  · rw [nearest_sign]
  · rw [nearest_sign]

/-- Few digits near the point are read as the nearest float. -/
theorem Numeral.isExact_of_short {n : Numeral} (h : n.IsShort) : n.IsExact := by
  obtain ⟨hc, hk⟩ := h
  have hscale : -((n.fraction.getD []).length : Int) + n.exponent.getD 0 = n.scale := by
    unfold scale
    omega
  unfold IsExact float?
  simp only [leading_of_fits (n := n) (hc.trans (by norm_num)), hscale,
    max_eq_left (show -100000 ≤ n.scale by omega), min_eq_right (show n.scale ≤ 100000 by omega),
    scaledBy_of_short hc hk 7]
  exact congrArg some (toFloat_sign n.negative hc hk).symm

/-! ## The numerals of floats -/

/-- The characters of a numeral are those of its decimal. -/
theorem Numeral.ofChars?_chars {n : Numeral} (h : n.Proper) : Decimal.ofChars? n.chars = some n.decimal := by
  have hend : Ends [] := .nil _
  obtain ⟨hexp, hpoint⟩ := stops_exponent n hend
  have hexponent := takeExponent?_chars n hend
  rw [List.append_nil] at hexp hpoint hexponent
  have hunsigned : ∀ negative,
      Decimal.ofUnsigned? negative (n.whole ++ (n.fractionChars ++ n.exponentChars)) =
        some ⟨negative, n.significand, n.scale⟩ := by
    intro negative
    unfold significand scale
    unfold fractionChars
    cases hfrac : n.fraction with
    | none =>
      simpa using ofUnsigned?_whole negative h.whole h.some_digit hexp hpoint hexponent
    | some digits =>
      simpa using ofUnsigned?_point negative h.whole h.some_digit (h.fraction digits hfrac).1 hexp hexponent
  have hsign := takeSign_digits (n.fractionChars ++ n.exponentChars) h.whole h.some_digit
  unfold Decimal.ofChars? chars decimal
  cases n.negative with
  | true => exact hunsigned true
  | false =>
    rw [if_neg Bool.false_ne_true, List.nil_append, hsign]
    exact hunsigned false

/-- A numeral whose value is a float is read as that float. -/
theorem Numeral.float?_of_value? {n : Numeral} {y : Float} (h : n.value? = some (.float y)) :
    n.float? = some y := by
  have hmap : n.float?.map Json.float = some (.float y) → n.float? = some y := fun h => by
    obtain ⟨z, hz, he⟩ := Option.map_eq_some_iff.1 h
    cases he
    exact hz
  unfold value? at h
  dsimp only at h
  split at h
  · split at h
    · cases h
    · split at h
      · cases h
      · exact hmap h
  · exact hmap h

/-- Every finite float is written as a numeral whose nearest float it is. -/
theorem exists_numeral_nearest {x : Float} (hx : x.isFinite = true) : ∃ n : Numeral, n.Proper ∧
    (Layout.json.show x).toList = n.chars ∧ n.decimal.toFloat = x ∧ ∃ y, n.value? = some (.float y) := by
  obtain ⟨b, hb⟩ : ∃ b, Binary.ofFloat? x = some b := by
    cases hb : Binary.ofFloat? x with
    | some b => exact ⟨b, rfl⟩
    | none => rw [(ofFloat?_eq_none_iff x).1 hb] at hx; cases hx
  obtain ⟨hcanonical, hxe, -⟩ := ofFloat?_spec hb
  obtain ⟨n, hn, hchars, y, hy⟩ := exists_numeral hcanonical
  obtain ⟨d, hd, hdx⟩ := ofChars?_finite Layout.json hcanonical
  rw [← hchars, n.ofChars?_chars hn] at hd
  cases hd
  refine ⟨n, hn, ?_, hdx.trans hxe.symm, y, hy⟩
  rw [Layout.show, hb, String.toList_ofList, hchars]

end Json

end LunchRush
