import LunchRush.Number.Decimal
import Mathlib
/-!
# The bits of a float

The fields that are read from the bits of a float say what kind of float it is: a finite one is put
together again from its exact value (`ofFloat?_spec`), and what is not finite is an infinity
(`eq_infinity`) or the one value that is no number (`eq_nan`).
-/

namespace LunchRush.Number

open Float.Model (Format UnpackedFloat)
open Float.Model.UnpackedFloat (unpackExponent unpackMantissa)

/-! ## What the fields say -/

theorem exponent_toNat (b : BitVec Format.binary64.numBits) :
    (unpackExponent b).toNat = b.toNat / 2 ^ 52 % 2 ^ 11 := by
  simp [unpackExponent, BitVec.extractLsb, Nat.shiftRight_eq_div_pow]

theorem mantissa_toNat (b : BitVec Format.binary64.numBits) :
    (unpackMantissa b).toNat = b.toNat % 2 ^ 52 := by
  simp [unpackMantissa, BitVec.extractLsb]

theorem exponent_eq_iff (b : BitVec Format.binary64.numBits) :
    unpackExponent b = -1#_ ↔ b.toNat / 2 ^ 52 % 2 ^ 11 = 2047 := by
  rw [← exponent_toNat]
  exact ⟨fun h => by rw [h]; rfl, fun h => BitVec.eq_of_toNat_eq h⟩

theorem mantissa_eq_iff (b : BitVec Format.binary64.numBits) :
    unpackMantissa b = 0#_ ↔ b.toNat % 2 ^ 52 = 0 := by
  rw [← mantissa_toNat]
  exact ⟨fun h => by rw [h]; rfl, fun h => BitVec.eq_of_toNat_eq h⟩

theorem unpack_isFinite_iff (b : BitVec Format.binary64.numBits) :
    (UnpackedFloat.unpack .binary64 b).isFinite = true ↔ b.toNat / 2 ^ 52 % 2 ^ 11 ≠ 2047 := by
  rw [ne_eq, ← exponent_eq_iff]
  unfold UnpackedFloat.unpack
  dsimp only
  split
  · split <;> simp_all [UnpackedFloat.isFinite]
  · split
    · split <;> simp_all [UnpackedFloat.isFinite]
    · simp_all [UnpackedFloat.isFinite]

theorem unpack_isNaN_iff (b : BitVec Format.binary64.numBits) :
    (UnpackedFloat.unpack .binary64 b).isNaN = true ↔
      b.toNat / 2 ^ 52 % 2 ^ 11 = 2047 ∧ b.toNat % 2 ^ 52 ≠ 0 := by
  rw [ne_eq, ← exponent_eq_iff, ← mantissa_eq_iff]
  unfold UnpackedFloat.unpack
  dsimp only
  split
  · split <;> simp_all [UnpackedFloat.isNaN]
  · split
    · split <;> simp_all [UnpackedFloat.isNaN]
    · simp_all [UnpackedFloat.isNaN]

theorem isFinite_iff (x : Float) : x.isFinite = true ↔ x.toBits.toNat / 2 ^ 52 % 2 ^ 11 ≠ 2047 :=
  unpack_isFinite_iff x.toBits.toBitVec

theorem isNaN_iff (x : Float) : x.isNaN = true ↔
    x.toBits.toNat / 2 ^ 52 % 2 ^ 11 = 2047 ∧ x.toBits.toNat % 2 ^ 52 ≠ 0 :=
  unpack_isNaN_iff x.toBits.toBitVec

/-! ## Every float by its bits -/

/-- The place of a float among those of its sign, counted from zero. -/
def stepsOf (x : Float) : Nat := x.toBits.toNat % 2 ^ 63

theorem ofSteps_stepsOf (x : Float) (h : stepsOf x ≤ 2047 * 2 ^ 52) :
    ofSteps (isNegative x) (stepsOf x) = x := by
  have hlt : x.toBits.toNat < 2 ^ 64 := x.toBits.toNat_lt
  have hbits : min (stepsOf x) (2047 * Nat.pow 2 52) + (if isNegative x then Nat.pow 2 63 else 0) =
      x.toBits.toNat := by
    unfold isNegative
    simp only [Nat.pow_eq, beq_iff_eq]
    unfold stepsOf at h ⊢
    split <;> omega
  unfold ofSteps
  rw [hbits, UInt64.ofNat_toNat, Float.ofBits_toBits]

theorem eq_nan {x : Float} (h : x.isNaN = true) : x = nan := by
  have hn := (isNaN_iff x).1 h
  obtain ⟨⟨bits, valid⟩⟩ := x
  have hb := valid.eq_packedNaN ((exponent_eq_iff _).2 hn.1) fun hz => hn.2 ((mantissa_eq_iff _).1 hz)
  rw [← Float.ofBits_toBits ⟨⟨bits, valid⟩⟩]
  exact congrArg Float.ofBits (UInt64.eq_of_toBitVec_eq hb)

theorem eq_infinity {x : Float} (hf : x.isFinite = false) (hn : x.isNaN = false) :
    x = infinity (isNegative x) := by
  have he : x.toBits.toNat / 2 ^ 52 % 2 ^ 11 = 2047 := by
    by_contra he
    rw [(isFinite_iff x).2 he] at hf
    cases hf
  have hm : x.toBits.toNat % 2 ^ 52 = 0 := by
    by_contra hm
    rw [(isNaN_iff x).2 ⟨he, hm⟩] at hn
    cases hn
  have hs : stepsOf x = 2047 * 2 ^ 52 := by
    have hlt : x.toBits.toNat < 2 ^ 64 := x.toBits.toNat_lt
    unfold stepsOf
    omega
  rw [infinity, Nat.pow_eq, ← hs, ofSteps_stepsOf x (by omega)]

/-! ## Finite floats -/

/-- The numbers that a finite float can be: below the least normal exponent the mantissa may be
short, elsewhere it has all of its 53 bits. -/
structure Binary.Canonical (b : Binary) : Prop where
  short : b.mantissa < 2 ^ 53
  low : -1074 ≤ b.exponent
  high : b.exponent ≤ 971
  full : b.exponent = -1074 ∨ 2 ^ 52 ≤ b.mantissa

/-- The place of a number among those of its sign, counted from zero. -/
def Binary.steps (b : Binary) : Nat := (b.exponent + 1074).toNat * 2 ^ 52 + b.mantissa

theorem ofFloat?_eq_none_iff (x : Float) : Binary.ofFloat? x = none ↔ x.isFinite = false := by
  rw [← Bool.not_eq_true, isFinite_iff, Classical.not_not]
  unfold Binary.ofFloat?
  simp only [Nat.pow_eq]
  split
  · simp_all
  · split <;> simp_all

theorem ofFloat?_spec {x : Float} {b : Binary} (h : Binary.ofFloat? x = some b) :
    b.Canonical ∧ x = ofSteps b.negative b.steps ∧ x.isFinite = true := by
  have hf : x.isFinite = true := by
    cases hx : x.isFinite with
    | true => rfl
    | false => rw [(ofFloat?_eq_none_iff x).2 hx] at h; cases h
  have hlt : x.toBits.toNat < 2 ^ 64 := x.toBits.toNat_lt
  have hkey : b.Canonical ∧ b.negative = isNegative x ∧ b.steps = stepsOf x := by
    unfold Binary.ofFloat? at h
    simp only [Nat.pow_eq] at h
    split at h
    · cases h
    · split at h
      · cases h
        refine ⟨⟨?_, ?_, ?_, .inl rfl⟩, rfl, ?_⟩ <;> simp only [Binary.steps, stepsOf] <;> omega
      · cases h
        refine ⟨⟨?_, ?_, ?_, .inr ?_⟩, rfl, ?_⟩ <;> simp only [Binary.steps, stepsOf] <;> omega
  obtain ⟨hc, hn, hs⟩ := hkey
  refine ⟨hc, ?_, hf⟩
  have hle : stepsOf x ≤ 2047 * 2 ^ 52 := by
    have := hc.short
    have := hc.high
    rw [← hs, Binary.steps]
    omega
  rw [hn, hs, ofSteps_stepsOf x hle]

end LunchRush.Number
