import LunchRush.Proofs.Json.Numerals
import LunchRush.Proofs.Number.Decimals
/-!
# Floats in JSON text

Every finite float is written as a numeral whose digits fit 64 bits. The reader scales those by a
power of ten and rounds at each step, so what it gives may be a neighbour of the float that was
written; but it never overflows, not even beside the greatest float (`exists_numeral`).
-/

namespace LunchRush.Json

open LunchRush.Number

/-! ## Powers of ten -/

/-- A number is not made larger by a negative power. -/
theorem scaledBy_neg (fuel : Nat) (x : Float) {e : Int} (he : e < 0) : ∃ y, scaledBy fuel x e = some y := by
  induction fuel generalizing x e with
  | zero => exact ⟨x, rfl⟩
  | succ fuel ih =>
    unfold scaledBy
    have hneg : ¬ 0 ≤ e := by omega
    simp only [if_neg hneg]
    split
    · exact ⟨_, rfl⟩
    · split
      · exact ⟨_, rfl⟩
      · exact ih _ (by omega)

/-- The greatest float. -/
def greatest : Nat := (2 ^ 53 - 1) * 2 ^ 971

/-- The product of a whole number and a power of ten, as the reader computes it. -/
def scaledUp (c e : Nat) : Float := (UInt64.ofNat c).toFloat * nearest false (Nat.pow 10 e) 1

/-- Beside each of the powers that eighteen digits could overflow with, the greatest number that keeps the
product below the greatest float. -/
theorem largest_finite : ∀ e < 309, 289 ≤ e →
    (UInt64.ofNat (min (greatest / 10 ^ e) (10 * 2 ^ 55))).toFloat.isFinite = true ∧
      (nearest false (Nat.pow 10 e) 1).isFinite = true ∧
      (scaledUp (min (greatest / 10 ^ e) (10 * 2 ^ 55)) e).isFinite = true := by
  decide +kernel

/-- A product of lesser factors is finite if that of the greater ones is. -/
theorem scaledUp_finite {c e top last : Nat} (hc : c ≤ top) (he : e ≤ last) (htop : top < 2 ^ 64)
    (hx : (UInt64.ofNat top).toFloat.isFinite = true) (hp : (nearest false (Nat.pow 10 last) 1).isFinite = true)
    (hxp : (scaledUp top last).isFinite = true) :
    ∃ n < infinitySteps, scaledUp c e = ofSteps false n := by
  obtain ⟨x, hxe, hrx⟩ := toFloat_ofSteps (UInt64.ofNat c)
  obtain ⟨x', hxe', hrx'⟩ := toFloat_ofSteps (UInt64.ofNat top)
  rw [UInt64.toNat_ofNat_of_lt' (hc.trans_lt htop)] at hrx
  rw [UInt64.toNat_ofNat_of_lt' htop] at hrx'
  obtain ⟨p, hpe, hrp⟩ := nearest_ofSteps (Nat.pow 10 e) one_pos
  obtain ⟨p', hpe', hrp'⟩ := nearest_ofSteps (Nat.pow 10 last) one_pos
  have hxx : x ≤ x' := hrx.le_of_le hrx' (by exact_mod_cast hc)
  have hpp : p ≤ p' := by
    refine hrp.le_of_le hrp' ?_
    gcongr
    exact Nat.pow_le_pow_right (by norm_num) he
  rw [hxe'] at hx
  rw [hpe'] at hp
  have hx' := isFinite_ofSteps hx
  have hp' := isFinite_ofSteps hp
  obtain ⟨n, hn, hrn⟩ := mul_ofSteps (hxx.trans_lt hx') (hpp.trans_lt hp')
  obtain ⟨n', hn', hrn'⟩ := mul_ofSteps hx' hp'
  rw [scaledUp, hxe', hpe', hn'] at hxp
  rw [scaledUp, hxe, hpe]
  refine ⟨n, (hrn.le_of_le hrn' ?_).trans_lt (isFinite_ofSteps hxp), hn⟩
  exact mul_le_mul (valueAt_mono hxx) (valueAt_mono hpp) (valueAt_nonneg p) (valueAt_nonneg x')

theorem greatest_lt : greatest < 10 ^ 309 := by decide +kernel

theorem lt_of_pow_le_greatest {e : Nat} (h : 10 ^ e ≤ greatest) : e < 309 := by
  have hlt := h.trans_lt greatest_lt
  generalize 309 = top at hlt ⊢
  exact (Nat.pow_lt_pow_iff_right (by norm_num)).1 hlt

/-- Up to this power eighteen digits stay below the greatest float. -/
theorem scaled_le_greatest : 10 * 2 ^ 55 * 10 ^ 289 ≤ greatest := by decide +kernel

/-- No product of at most eighteen digits and a power of ten overflows, as long as it is no greater than
the greatest float. -/
theorem scaledBy_of_le {c e : Nat} (hpos : 0 < c) (hc : c < 10 * 2 ^ 55) (hv : c * 10 ^ e ≤ greatest)
    (fuel : Nat) : ∃ y, scaledBy (fuel + 1) (UInt64.ofNat c).toFloat e = some y := by
  have he : e < 309 := lt_of_pow_le_greatest ((Nat.le_mul_of_pos_left _ hpos).trans hv)
  have hv' : c * 10 ^ max e 289 ≤ greatest := by
    rcases le_total e 289 with h | h
    · rw [max_eq_right h]
      exact (Nat.mul_le_mul_right _ hc.le).trans scaled_le_greatest
    · rwa [max_eq_left h]
  obtain ⟨hx, hp, hxp⟩ := largest_finite (max e 289) (max_lt he (by decide)) (le_max_right _ _)
  have hle : c ≤ min (greatest / 10 ^ max e 289) (10 * 2 ^ 55) :=
    le_min ((Nat.le_div_iff_mul_le (by positivity)).2 hv') hc.le
  have htop : min (greatest / 10 ^ max e 289) (10 * 2 ^ 55) < 2 ^ 64 :=
    (min_le_right _ _).trans_lt (by norm_num)
  obtain ⟨n, hn, hprod⟩ := scaledUp_finite hle (le_max_left e 289) htop hx hp hxp
  rw [scaledUp] at hprod
  unfold scaledBy
  simp only [Int.natAbs_natCast, hprod, isInf_ofSteps hn]
  rw [if_pos (by omega), if_pos (by omega)]
  exact ⟨_, rfl⟩

/-- What is near a float is no greater than the greatest float, unless it is near that one. -/
theorem near_le_greatest {b : Binary} (hc : b.Canonical)
    (hmax : ¬ (b.mantissa = 2 ^ 53 - 1 ∧ b.exponent = 971)) {v : ℚ} (h : b.Near v) : v ≤ greatest := by
  have hshort := hc.short
  have hhigh := hc.high
  have hnonneg : (0 : ℚ) ≤ 4 * b.mantissa + 2 := by positivity
  have hg : (greatest : ℚ) = (2 ^ 53 - 1) * (4 * 2 ^ ((971 : Int) - 2)) := by
    rw [← quarter_mul, greatest, Nat.cast_mul, Nat.cast_pow, ← zpow_natCast]
    norm_num only
  rw [hg]
  refine h.high.trans ?_
  rcases hhigh.eq_or_lt with he | he
  · -- the next float is finite
    have hm : (b.mantissa : ℚ) + 2 ≤ 2 ^ 53 := by
      exact_mod_cast (show b.mantissa + 2 ≤ 2 ^ 53 by omega)
    rw [he, ← mul_assoc]
    refine mul_le_mul_of_nonneg_right ?_ (by positivity)
    linarith
  · have hm : (b.mantissa : ℚ) + 1 ≤ 2 ^ 53 := by exact_mod_cast hshort
    have hp : (2 : ℚ) ^ (b.exponent - 2) ≤ 2 ^ (968 : Int) :=
      zpow_le_zpow_right₀ (by norm_num) (by omega)
    have hstep : (2 : ℚ) ^ ((971 : Int) - 2) = 2 ^ (968 : Int) * 2 := by
      rw [show (971 : Int) - 2 = 968 + 1 from rfl, zpow_add_one₀ (by norm_num)]
    have hpos : (0 : ℚ) < 2 ^ (968 : Int) := zpow_pos (by norm_num) _
    rw [hstep]
    generalize (2 : ℚ) ^ (968 : Int) = p at hp hpos
    calc (4 * b.mantissa + 2 : ℚ) * 2 ^ (b.exponent - 2) ≤ (4 * b.mantissa + 2) * p :=
          mul_le_mul_of_nonneg_left hp hnonneg
      _ ≤ (2 ^ 53 - 1) * (4 * 2) * p := mul_le_mul_of_nonneg_right (by linarith) hpos.le
      _ = (2 ^ 53 - 1) * (4 * (p * 2)) := by ring

/-- The decimal that is written for the greatest float. -/
theorem shortest_greatest (negative : Bool) :
    Binary.shortest ⟨negative, 2 ^ 53 - 1, 971⟩ .toEven = (17976931348623157, 292) := by
  cases negative <;> decide +kernel

/-- The decimal that is written for a float is no greater than the greatest float. -/
theorem shortest_le_greatest {b : Binary} (hc : b.Canonical) (hm : 0 < b.mantissa) {e : Nat}
    (he : (b.shortest .toEven).2 = e) : (b.shortest .toEven).1 * 10 ^ e ≤ greatest := by
  by_cases hmax : b.mantissa = 2 ^ 53 - 1 ∧ b.exponent = 971
  · obtain ⟨negative, mantissa, exponent⟩ := b
    obtain ⟨rfl, rfl⟩ : mantissa = 2 ^ 53 - 1 ∧ exponent = 971 := hmax
    rw [shortest_greatest] at he ⊢
    obtain rfl : 292 = e := Int.ofNat_inj.1 he
    decide +kernel
  · have hnear := near_le_greatest hc hmax (shortest_near hc hm .toEven).2
    rw [he, zpow_natCast] at hnear
    exact_mod_cast hnear

/-! ## How floats are written -/

theorem decimalDigits_head {n : Nat} (h : 0 < n) : (decimalDigits n).head? ≠ some '0' := by
  have hdigit : ∀ d < 10, 0 < d → Nat.digitChar d ≠ '0' := by decide
  induction n using Nat.strongRecOn with
  | ind n ih =>
    unfold decimalDigits at ih ⊢
    rw [Nat.toDigits_eq_if (by decide)]
    split
    · rename_i hlt
      simpa using hdigit n hlt h
    · rw [List.head?_append_of_ne_nil _ Nat.toDigits_ne_nil]
      exact ih _ (by omega) (by omega)

theorem lt_ten_pow_length {c : Nat} : c < 10 ^ (decimalDigits c).length :=
  (Nat.length_toDigits_le_iff (by decide) Nat.length_toDigits_pos).1 le_rfl

/-- A numeral in which `c * 10 ^ e` is written: all its digits count, and unless the last of them stands
behind the point they are those of `c`. -/
structure Numeral.Writes (n : Numeral) (c : Nat) (e : Int) : Prop where
  proper : n.Proper
  /-- It is not written as a whole number. -/
  marked : (n.fraction.isNone && n.exponent.isNone) = false
  fits : n.significand < 2 ^ 64
  scale : n.scale < 0 ∨ n.significand = c ∧ n.scale = e

section

variable (negative : Bool) {c : Nat} (hpos : 0 < c) (hc : c < 10 * 2 ^ 55) (e : Int)
include hpos hc

/-- A decimal that is set without an exponent has digits on either side of the point. -/
theorem positional_numeral (hfirst : ((decimalDigits c).length : Int) - 1 + e ≤ 15) :
    ∃ n : Numeral, n.Writes c e ∧ n.chars = (if negative then ['-'] else []) ++
      Layout.json.positional (decimalDigits c) ((decimalDigits c).length + e) := by
  obtain ⟨added, whole, fraction, h, hchars, hpoint, hadded⟩ :=
    positional_pointed Layout.json (decimalDigits_digits c) (decimalDigits_ne_nil c) e
  have hne := hpoint rfl
  have hvalue := h.value
  rw [ofDigits_decimalDigits] at hvalue
  have hfits : ofDigits (whole ++ fraction) < 2 ^ 64 := by
    rw [hvalue]
    rcases hadded with rfl | hadded
    · omega
    · -- zeros are added up to the sixteenth digit and one more
      calc c * 10 ^ added < 10 ^ (decimalDigits c).length * 10 ^ added := by
            gcongr
            exact lt_ten_pow_length
        _ = 10 ^ ((decimalDigits c).length + added) := (pow_add _ _ _).symm
        _ ≤ 10 ^ 17 := Nat.pow_le_pow_right (by norm_num) (by omega)
        _ < 2 ^ 64 := by norm_num
  have hleading : whole = ['0'] ∨ whole.head? ≠ some '0' :=
    h.leading.imp_right fun hl => by rw [hl]; exact decimalDigits_head hpos
  have hscale : Numeral.scale ⟨negative, whole, some fraction, none⟩ < 0 := by
    have := List.length_pos_iff.2 hne
    simp [Numeral.scale]
    omega
  refine ⟨⟨negative, whole, some fraction, none⟩,
    ⟨⟨h.whole_digits, h.some_digit, hleading, ?_⟩, rfl, hfits, .inl hscale⟩, ?_⟩
  · rintro _ ⟨⟩
    exact ⟨h.fraction_digits, hne⟩
  · rw [hchars, if_neg hne]
    simp [Numeral.chars, Numeral.fractionChars, Numeral.exponentChars]

/-- A decimal with an exponent has all of its digits. -/
theorem scientific_numeral : ∃ n : Numeral, n.Writes c e ∧ n.chars = (if negative then ['-'] else []) ++
    Layout.json.scientific (decimalDigits c) ((decimalDigits c).length - 1 + e) := by
  have hd := decimalDigits_digits c
  have hne := decimalDigits_ne_nil c
  have hhead := decimalDigits_head hpos
  have hval := ofDigits_decimalDigits c
  generalize decimalDigits c = digits at *
  have hfits : ofDigits digits < 2 ^ 64 := by omega
  unfold Layout.scientific
  match digits, hne with
  | [first], _ =>
    refine ⟨⟨negative, [first], none, some ([first].length - 1 + e)⟩,
      ⟨⟨hd, by simp, .inr hhead, nofun⟩, rfl, hfits, .inr ⟨hval, by simp [Numeral.scale]⟩⟩, ?_⟩
    simp [Numeral.chars, Numeral.fractionChars, Numeral.exponentChars, Layout.json]
  | first :: second :: more, _ =>
    refine ⟨⟨negative, [first], some (second :: more), some ((first :: second :: more).length - 1 + e)⟩,
      ⟨⟨fun c hc => hd c (by simp_all), by simp, .inr hhead, ?_⟩, rfl, hfits,
        .inr ⟨hval, by simp [Numeral.scale]⟩⟩, ?_⟩
    · rintro _ ⟨⟩
      exact ⟨fun c hc => hd c (List.mem_cons_of_mem _ hc), by simp⟩
    · simp [Numeral.chars, Numeral.fractionChars, Numeral.exponentChars, Layout.json]

/-- The text of a decimal is a numeral. -/
theorem digits_numeral : ∃ n : Numeral, n.Writes c e ∧
    n.chars = (if negative then ['-'] else []) ++ Layout.json.digits c e := by
  generalize hsign : (if negative then ['-'] else []) = sign
  unfold Layout.digits
  rw [if_neg (Nat.ne_of_gt hpos)]
  dsimp only
  split
  · rename_i h
    obtain ⟨-, hfirst⟩ := Bool.and_eq_true_iff.1 h
    rw [← hsign, show ((decimalDigits c).length : Int) - 1 + e + 1 = (decimalDigits c).length + e by omega]
    exact positional_numeral negative hpos hc e (of_decide_eq_true hfirst)
  · rw [← hsign]
    exact scientific_numeral negative hpos hc e

end

/-! ## How they are read -/

/-- A numeral whose digits fit gives a float if its last digit stands behind the point, or if it has no
more than eighteen digits and is no greater than the greatest float. -/
theorem Numeral.float?_eq_some {n : Numeral} (hfits : n.significand < 2 ^ 64)
    (h : n.scale < 0 ∨ 0 < n.significand ∧ n.significand < 10 * 2 ^ 55 ∧
      ∃ e : Nat, n.scale = e ∧ n.significand * 10 ^ e ≤ greatest) : ∃ x, n.float? = some x := by
  have hscale : -((n.fraction.getD []).length : Int) + n.exponent.getD 0 = n.scale := by
    unfold scale
    omega
  have hscaled : ∃ y, scaledBy 8 (UInt64.ofNat n.significand).toFloat
      (min 100000 (max n.scale (-100000))) = some y := by
    rcases h with h | ⟨hpos, hlt, e, he, hle⟩
    · exact scaledBy_neg 8 _ (by omega)
    · have hsmall : e < 309 := lt_of_pow_le_greatest ((Nat.le_mul_of_pos_left _ hpos).trans hle)
      rw [he, max_eq_left (by omega), min_eq_right (by omega)]
      exact scaledBy_of_le hpos hlt hle 7
  obtain ⟨y, hy⟩ := hscaled
  unfold float?
  simp only [leading_of_fits hfits, hscale, hy]
  exact ⟨_, rfl⟩

theorem Numeral.value?_eq_some {n : Numeral} (hmarked : (n.fraction.isNone && n.exponent.isNone) = false)
    {x : Float} (hx : n.float? = some x) : n.value? = some (.float x) := by
  unfold value?
  dsimp only
  rw [hmarked, Bool.false_and, if_neg (by simp), hx]
  rfl

/-- Every finite float is written as a numeral that gives a float. -/
theorem exists_numeral {b : Binary} (hb : b.Canonical) :
    ∃ n : Numeral, n.Proper ∧ n.chars = Layout.json.finite b ∧ ∃ x, n.value? = some (.float x) := by
  unfold Layout.finite
  by_cases hm : b.mantissa = 0
  · rw [if_pos hm]
    generalize b.negative = negative
    have hproper : Numeral.Proper ⟨negative, ['0'], some ['0'], none⟩ := by
      refine ⟨by simp [Digits], by simp, .inl rfl, ?_⟩
      rintro _ ⟨⟩
      exact ⟨by simp [Digits], by simp⟩
    obtain ⟨x, hx⟩ := Numeral.float?_eq_some (n := ⟨negative, ['0'], some ['0'], none⟩)
      (show ofDigits ['0', '0'] < 2 ^ 64 by decide) (.inl (show (0 : Int) - 1 < 0 by decide))
    exact ⟨_, hproper, rfl, x, Numeral.value?_eq_some rfl hx⟩
  · rw [if_neg hm]
    have hm := Nat.pos_of_ne_zero hm
    have hpos := (shortest_near hb hm Layout.json.tie).1
    have hlt := shortest_lt hb hm Layout.json.tie
    obtain ⟨n, hn, hchars⟩ := digits_numeral b.negative hpos hlt (b.shortest Layout.json.tie).2
    have hscale : n.scale < 0 ∨ 0 < n.significand ∧ n.significand < 10 * 2 ^ 55 ∧
        ∃ e : Nat, n.scale = e ∧ n.significand * 10 ^ e ≤ greatest := by
      rcases hn.scale with hneg | ⟨hs, he⟩
      · exact .inl hneg
      · rcases Int.lt_or_le n.scale 0 with hneg | hnonneg
        · exact .inl hneg
        · obtain ⟨e, hnat⟩ := Int.eq_ofNat_of_zero_le hnonneg
          rw [hs]
          exact .inr ⟨hpos, hlt, e, hnat, shortest_le_greatest hb hm (he.symm.trans hnat)⟩
    obtain ⟨x, hx⟩ := Numeral.float?_eq_some hn.fits hscale
    exact ⟨n, hn.proper, hchars, x, Numeral.value?_eq_some hn.marked hx⟩

end LunchRush.Json
