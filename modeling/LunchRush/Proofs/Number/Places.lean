import LunchRush.Proofs.Number.Bits
/-!
# Floats in order

`ofSteps` counts the floats of a sign away from zero. The place of a float settles what is unpacked
from its bits (`unpacked_ofSteps`), packing it gives the float back (`Unpacked.packed`), and floats
compare as their places do (`le_ofSteps_iff`); past the last finite float every place is infinity.
-/

namespace LunchRush.Number

open Float.Model (Format UnpackedFloat)
open Float.Model.UnpackedFloat (packedInfinity unpackExponent unpackMantissa unpackSign Sign)

/-- The place of infinity among the floats of its sign. -/
def infinitySteps : Nat := 2047 * 2 ^ 52

/-! ## The fields of a place -/

/-- How often the last bit of a float is twice that of the least float. -/
def doublings (steps : Nat) : Nat := steps / 2 ^ 52 - 1

/-- The float in units of its last bit. -/
def mantissaAt (steps : Nat) : Nat := steps - doublings steps * 2 ^ 52

theorem mantissaAt_spec (steps : Nat) : mantissaAt steps < 2 ^ 53 ∧
    (doublings steps = 0 ∨ 2 ^ 52 ≤ mantissaAt steps) ∧
    doublings steps * 2 ^ 52 + mantissaAt steps = steps := by
  unfold mantissaAt doublings
  omega

theorem mantissaAt_pos_iff (steps : Nat) : 0 < mantissaAt steps ↔ 0 < steps := by
  unfold mantissaAt doublings
  omega

/-! ## Bits -/

theorem toBits_ofSteps (negative : Bool) (steps : Nat) :
    (ofSteps negative steps).toBits.toNat =
      min steps infinitySteps + if negative then 2 ^ 63 else 0 := by
  let bits := UInt64.ofNat (min steps infinitySteps + if negative then 2 ^ 63 else 0)
  have hbits : bits.toNat = min steps infinitySteps + if negative then 2 ^ 63 else 0 := by
    refine UInt64.toNat_ofNat_of_lt' ?_
    change _ < 2 ^ 64
    unfold infinitySteps
    split <;> omega
  have hnan : @UnpackedFloat.isNaNBits .binary64 bits.toBitVec = false := by
    rw [UnpackedFloat.isNaNBits, decide_eq_false_iff_not, exponent_eq_iff, ne_eq, mantissa_eq_iff]
    change ¬ (bits.toNat / 2 ^ 52 % 2 ^ 11 = 2047 ∧ ¬ bits.toNat % 2 ^ 52 = 0)
    rw [hbits]
    unfold infinitySteps
    split <;> omega
  rw [← hbits]
  refine congrArg BitVec.toNat ?_
  change UnpackedFloat.pack .binary64 (UnpackedFloat.unpack .binary64 bits.toBitVec) = bits.toBitVec
  rw [UnpackedFloat.pack_unpack, hnan]
  rfl

def signOf : Bool → Sign
  | true => .negative
  | false => .positive

theorem sign_toNat (b : BitVec Format.binary64.numBits) :
    (unpackSign b).toNat = b.toNat / 2 ^ 63 := by
  have hlt : b.toNat < 2 ^ 64 := b.isLt
  simp [unpackSign, BitVec.extractLsb, Nat.shiftRight_eq_div_pow]
  omega

theorem sign_eq {b : BitVec Format.binary64.numBits} {negative : Bool} {rest : Nat}
    (hb : b.toNat = rest + if negative then 2 ^ 63 else 0) (hr : rest < 2 ^ 63) :
    Sign.ofBitVec (unpackSign b) = signOf negative := by
  have hs := sign_toNat b
  unfold Sign.ofBitVec
  cases negative with
  | true =>
    rw [if_neg]
    · rfl
    · intro hz
      rw [hz, hb] at hs
      change 0 = (rest + 2 ^ 63) / 2 ^ 63 at hs
      omega
  | false =>
    rw [if_pos]
    · rfl
    · apply BitVec.eq_of_toNat_eq
      rw [hs, hb]
      change (rest + 0) / 2 ^ 63 = 0
      omega

/-! ## What is unpacked -/

/-- What is unpacked from the bits of the float at a place. -/
inductive Unpacked (negative : Bool) (steps : Nat) : UnpackedFloat → Prop
  | zero : steps = 0 → Unpacked negative steps (.zero (signOf negative))
  | finite (h : 0 < mantissaAt steps) : steps < infinitySteps → Unpacked negative steps
      (.finite (signOf negative) (mantissaAt steps) ((doublings steps : Int) - 1074) h)
  | infinity : infinitySteps ≤ steps → Unpacked negative steps (.infinity (signOf negative))

/-- Below the normal floats the mantissa stands in the bits as it is. -/
theorem unpacked_subnormal {b : BitVec Format.binary64.numBits} {negative : Bool} {steps : Nat}
    (hb : b.toNat = steps + if negative then 2 ^ 63 else 0) (h : steps < 2 ^ 52) :
    Unpacked negative steps (UnpackedFloat.unpack .binary64 b) := by
  have he := exponent_toNat b
  have hm := mantissa_toNat b
  rw [hb] at he hm
  have hz : unpackExponent b = 0#_ := by
    apply BitVec.eq_of_toNat_eq
    rw [he]
    change _ = 0
    split <;> omega
  have hsteps : (unpackMantissa b).toNat = steps := by
    rw [hm]
    split <;> omega
  have hmant : mantissaAt steps = steps := by unfold mantissaAt doublings; omega
  have hd : doublings steps = 0 := by unfold doublings; omega
  unfold UnpackedFloat.unpack
  dsimp only
  rw [sign_eq hb (by omega), if_neg (by rw [hz]; decide), if_pos hz]
  split
  · rename_i hnil
    refine .zero ?_
    rw [← hsteps, hnil]
    rfl
  · rename_i hne
    rw [mantissa_eq_iff, ← mantissa_toNat, hsteps] at hne
    have hpos : 0 < mantissaAt steps := by omega
    convert (Unpacked.finite hpos (by unfold infinitySteps; omega) : Unpacked negative steps _) using 2
    · rw [hsteps, hmant]
    · rw [hz, hd]
      rfl

/-- The mantissa of a normal float has a one before the bits. -/
theorem unpacked_normal {b : BitVec Format.binary64.numBits} {negative : Bool} {steps : Nat}
    (hb : b.toNat = steps + if negative then 2 ^ 63 else 0) (hl : 2 ^ 52 ≤ steps)
    (hh : steps < infinitySteps) : Unpacked negative steps (UnpackedFloat.unpack .binary64 b) := by
  have hfin := hh
  unfold infinitySteps at hh
  have he := exponent_toNat b
  have hm := mantissa_toNat b
  rw [hb] at he hm
  have hexp : (unpackExponent b).toNat = doublings steps + 1 := by
    rw [he]
    unfold doublings
    split <;> omega
  have hz : ¬ unpackExponent b = 0#_ := by
    intro h
    rw [h] at hexp
    exact absurd hexp.symm (Nat.succ_ne_zero _)
  have htop : ¬ unpackExponent b = -1#_ := by
    intro h
    rw [h] at hexp
    change 2047 = doublings steps + 1 at hexp
    unfold doublings at hexp
    omega
  have hmant : (1#1 ++ unpackMantissa b).toNat = mantissaAt steps := by
    rw [BitVec.toNat_append, ← Nat.shiftLeft_add_eq_or_of_lt (unpackMantissa b).isLt,
      Nat.shiftLeft_eq, hm]
    change 1 * 2 ^ 52 + _ = _
    unfold mantissaAt doublings
    split <;> omega
  have hpos : 0 < mantissaAt steps := (mantissaAt_pos_iff steps).2 (by omega)
  unfold UnpackedFloat.unpack
  dsimp only
  rw [sign_eq hb (by omega), if_neg htop, if_neg hz]
  convert (Unpacked.finite hpos hfin : Unpacked negative steps _) using 2
  rw [hexp]
  change ((doublings steps + 1 : Nat) : Int) - (1023 + 52) = _
  omega

theorem unpacked_infinity {b : BitVec Format.binary64.numBits} {negative : Bool}
    (hb : b.toNat = infinitySteps + if negative then 2 ^ 63 else 0) :
    UnpackedFloat.unpack .binary64 b = .infinity (signOf negative) := by
  have he : unpackExponent b = -1#_ := by
    rw [exponent_eq_iff, hb]
    unfold infinitySteps
    split <;> omega
  have hm : unpackMantissa b = 0#_ := by
    rw [mantissa_eq_iff, hb]
    unfold infinitySteps
    split <;> omega
  unfold UnpackedFloat.unpack
  dsimp only
  rw [sign_eq hb (by unfold infinitySteps; omega), if_pos he, if_pos hm]

theorem unpacked_ofSteps (negative : Bool) (steps : Nat) :
    Unpacked negative steps (ofSteps negative steps).toModel.unpack := by
  have hb := toBits_ofSteps negative steps
  rcases Nat.lt_or_ge steps infinitySteps with h | h
  · rw [Nat.min_eq_left h.le] at hb
    rcases Nat.lt_or_ge steps (2 ^ 52) with hs | hs
    · exact unpacked_subnormal hb hs
    · exact unpacked_normal hb hs h
  · rw [Nat.min_eq_right h] at hb
    have hu : (ofSteps negative steps).toModel.unpack = .infinity (signOf negative) :=
      unpacked_infinity hb
    rw [hu]
    exact .infinity h

/-- The bits of a finite float say its fields. -/
theorem ofFloat?_ofSteps {n : Nat} (hn : n < infinitySteps) :
    Binary.ofFloat? (ofSteps false n) = some ⟨false, mantissaAt n, (doublings n : Int) - 1074⟩ := by
  have hb := toBits_ofSteps false n
  rw [Nat.min_eq_left hn.le] at hb
  change _ = n + 0 at hb
  unfold infinitySteps at hn
  have hneg : isNegative (ofSteps false n) = false := by
    unfold isNegative
    rw [hb, beq_eq_false_iff_ne, Nat.pow_eq]
    omega
  unfold Binary.ofFloat?
  simp only [hb, hneg, Nat.pow_eq, Nat.add_zero, mantissaAt, doublings]
  rw [if_neg (by omega)]
  split
  · simp only [Option.some.injEq, Binary.mk.injEq, true_and]
    omega
  · simp only [Option.some.injEq, Binary.mk.injEq, true_and]
    omega

/-- What is unpacked from a finite float of positive sign. -/
theorem unpacked_pos {n : Nat} (h : n < infinitySteps) :
    (n = 0 ∧ (ofSteps false n).toModel.unpack = .zero .positive) ∨
      ∃ hm, (ofSteps false n).toModel.unpack =
        .finite .positive (mantissaAt n) ((doublings n : Int) - 1074) hm := by
  have hu := unpacked_ofSteps false n
  generalize (ofSteps false n).toModel.unpack = u at hu
  cases hu with
  | zero h0 => exact .inl ⟨h0, rfl⟩
  | finite hm hf => exact .inr ⟨hm, rfl⟩
  | infinity hi => omega

theorem isInf_ofSteps {n : Nat} (h : n < infinitySteps) : (ofSteps false n).isInf = false := by
  change (ofSteps false n).toModel.unpack.isInf = false
  rcases unpacked_pos h with ⟨-, hu⟩ | ⟨hm, hu⟩ <;> rw [hu] <;> rfl

/-! ## What is packed -/

/-- The float of an unpacked result. -/
def packed (u : UnpackedFloat) : Float := Float.ofModel (Float.Model.pack u)

theorem packed_unpack (x : Float) : packed x.toModel.unpack = x := Float.ofBits_toBits x

theorem Unpacked.unique {negative : Bool} {steps : Nat} {u v : UnpackedFloat}
    (hu : Unpacked negative steps u) (hv : Unpacked negative steps v) : u = v := by
  have htop : 0 < infinitySteps := by decide
  cases hu with
  | zero h =>
    cases hv with
    | zero _ => rfl
    | finite hp _ => exact absurd ((mantissaAt_pos_iff steps).1 hp) (by omega)
    | infinity hi => omega
  | finite hp h =>
    cases hv with
    | zero h0 => exact absurd ((mantissaAt_pos_iff steps).1 hp) (by omega)
    | finite _ _ => rfl
    | infinity hi => omega
  | infinity h =>
    cases hv with
    | zero h0 => omega
    | finite hp hf => omega
    | infinity _ => rfl

theorem Unpacked.packed {negative : Bool} {steps : Nat} {u : UnpackedFloat}
    (h : Unpacked negative steps u) : packed u = ofSteps negative steps := by
  rw [h.unique (unpacked_ofSteps negative steps), packed_unpack]

/-- Past the last finite float the packed result is infinite. -/
theorem packed_finite (negative : Bool) {steps : Nat} (h : 0 < mantissaAt steps) :
    packed (.finite (signOf negative) (mantissaAt steps) ((doublings steps : Int) - 1074) h) =
      ofSteps negative steps := by
  rcases Nat.lt_or_ge steps infinitySteps with hlt | hge
  · exact (Unpacked.finite h hlt).packed
  · rw [← (Unpacked.infinity hge : Unpacked negative steps _).packed]
    have hbig : 2 ^ Format.binary64.exponentBits ≤
        ((doublings steps : Int) - 1074 + Format.binary64.exponentBias +
          Format.binary64.mantissaBitsWithoutImplicit).toNat + 1 := by
      change 2048 ≤ ((doublings steps : Int) - 1074 + 1023 + 52).toNat + 1
      unfold infinitySteps at hge
      unfold doublings
      omega
    have hinf : UnpackedFloat.pack .binary64 (.finite (signOf negative) (mantissaAt steps)
        ((doublings steps : Int) - 1074) h) = packedInfinity .binary64 (signOf negative) :=
      if_pos hbig
    exact Float.toBits_inj.1 (congrArg UInt64.ofBitVec hinf)

theorem packed_zero : packed (.zero .positive) = ofSteps false 0 :=
  (Unpacked.zero rfl : Unpacked false 0 _).packed

/-! ## The order -/

theorem le_iff_unpack (x y : Float) : x ≤ y ↔ x.toModel.unpack.le y.toModel.unpack = true := by
  show Float.le x y = true ↔ _
  unfold Float.le
  exact decide_eq_true_iff

theorem lt_iff_unpack (x y : Float) : x < y ↔ x.toModel.unpack.lt y.toModel.unpack = true := by
  show Float.lt x y = true ↔ _
  unfold Float.lt
  exact decide_eq_true_iff

/-- Two numbers compare, whichever comes first. -/
theorem compare_swap {x y : UnpackedFloat} (hx : x.isNaN = false) (hy : y.isNaN = false) :
    ∃ o : Ordering, x.compare y = some o ∧ y.compare x = some o.swap := by
  have hfields : ∀ (m m' : Nat) (e e' : Int), ((compare e e').then (compare m m')).swap =
      (compare e' e).then (compare m' m) := by
    intro m m' e e'
    rw [Ordering.swap_then, Int.compare_swap, Nat.compare_swap]
  cases x with
  | notANumber => cases hx
  | infinity s =>
    cases y with
    | notANumber => cases hy
    | infinity t => cases s <;> cases t <;> exact ⟨_, rfl, rfl⟩
    | zero t => cases s <;> exact ⟨_, rfl, rfl⟩
    | finite t m e h => cases s <;> exact ⟨_, rfl, rfl⟩
  | zero s =>
    cases y with
    | notANumber => cases hy
    | infinity t => cases t <;> exact ⟨_, rfl, rfl⟩
    | zero t => exact ⟨_, rfl, rfl⟩
    | finite t m e h => cases t <;> exact ⟨_, rfl, rfl⟩
  | finite s m e h =>
    cases y with
    | notANumber => cases hy
    | infinity t => cases t <;> exact ⟨_, rfl, rfl⟩
    | zero t => cases s <;> exact ⟨_, rfl, rfl⟩
    | finite t m' e' h' =>
      cases s with
      | negative =>
        cases t with
        | negative => exact ⟨_, rfl, congrArg (some <| Ordering.swap ·) (hfields m m' e e').symm⟩
        | positive => exact ⟨_, rfl, rfl⟩
      | positive =>
        cases t with
        | negative => exact ⟨_, rfl, rfl⟩
        | positive => exact ⟨_, rfl, congrArg some (hfields m m' e e').symm⟩

/-- Of two numbers one is not above the other where that is not below it. -/
theorem le_iff_not_lt {x y : Float} (hx : x.isNaN = false) (hy : y.isNaN = false) :
    x ≤ y ↔ ¬ y < x := by
  change x.toModel.unpack.isNaN = false at hx
  change y.toModel.unpack.isNaN = false at hy
  obtain ⟨o, h, h'⟩ := compare_swap hx hy
  rw [le_iff_unpack, lt_iff_unpack, UnpackedFloat.le, UnpackedFloat.lt, h, h']
  cases o <;> decide

/-- The exponents of two floats come first, and then their mantissas. -/
theorem compare_fields (a b : Nat) :
    (compare ((doublings a : Int) - 1074) ((doublings b : Int) - 1074)).then
      (compare (mantissaAt a) (mantissaAt b)) = compare a b := by
  obtain ⟨hma, hda, hsa⟩ := mantissaAt_spec a
  obtain ⟨hmb, hdb, hsb⟩ := mantissaAt_spec b
  rcases Nat.lt_trichotomy (doublings a) (doublings b) with h | h | h
  · have hlt : a < b := by omega
    rw [Int.compare_eq_lt.2 (by omega), Nat.compare_eq_lt.2 hlt, Ordering.lt_then]
  · rw [Int.compare_eq_eq.2 (by omega), Ordering.eq_then]
    rcases Nat.lt_trichotomy (mantissaAt a) (mantissaAt b) with h' | h' | h'
    · rw [Nat.compare_eq_lt.2 h', Nat.compare_eq_lt.2 (by omega)]
    · rw [Nat.compare_eq_eq.2 h', Nat.compare_eq_eq.2 (by omega)]
    · rw [Nat.compare_eq_gt.2 h', Nat.compare_eq_gt.2 (by omega)]
  · have hgt : b < a := by omega
    rw [Int.compare_eq_gt.2 (by omega), Nat.compare_eq_gt.2 hgt, Ordering.gt_then]

/-- Floats of positive sign compare as their places do, and all that lies past the last finite one
is one float. -/
theorem compare_ofSteps (a b : Nat) :
    (ofSteps false a).toModel.unpack.compare (ofSteps false b).toModel.unpack =
      some (compare (min a infinitySteps) (min b infinitySteps)) := by
  have ha := unpacked_ofSteps false a
  have hb := unpacked_ofSteps false b
  generalize (ofSteps false a).toModel.unpack = x at ha
  generalize (ofSteps false b).toModel.unpack = y at hb
  have htop : 0 < infinitySteps := by decide
  cases ha with
  | zero ha =>
    cases hb with
    | zero hb => rw [ha, hb, Nat.compare_eq_eq.2 rfl]; rfl
    | finite h hb =>
      have hpos := (mantissaAt_pos_iff b).1 h
      rw [Nat.compare_eq_lt.2 (by omega)]
      rfl
    | infinity hb => rw [Nat.compare_eq_lt.2 (by omega)]; rfl
  | finite h ha =>
    have hpos := (mantissaAt_pos_iff a).1 h
    cases hb with
    | zero hb => rw [Nat.compare_eq_gt.2 (by omega)]; rfl
    | finite h' hb =>
      rw [Nat.min_eq_left ha.le, Nat.min_eq_left hb.le, ← compare_fields]
      rfl
    | infinity hb => rw [Nat.compare_eq_lt.2 (by omega)]; rfl
  | infinity ha =>
    cases hb with
    | zero hb => rw [Nat.compare_eq_gt.2 (by omega)]; rfl
    | finite h' hb => rw [Nat.compare_eq_gt.2 (by omega)]; rfl
    | infinity hb => rw [Nat.compare_eq_eq.2 (by omega)]; rfl

theorem le_ofSteps_iff (a b : Nat) :
    ofSteps false a ≤ ofSteps false b ↔ min a infinitySteps ≤ min b infinitySteps := by
  rw [le_iff_unpack, UnpackedFloat.le, compare_ofSteps, ← Nat.compare_ne_gt]
  cases compare (min a infinitySteps) (min b infinitySteps) <;> simp

theorem lt_ofSteps_iff (a b : Nat) :
    ofSteps false a < ofSteps false b ↔ min a infinitySteps < min b infinitySteps := by
  rw [lt_iff_unpack, UnpackedFloat.lt, compare_ofSteps, ← Nat.compare_eq_lt]
  cases compare (min a infinitySteps) (min b infinitySteps) <;> simp

theorem ofSteps_inj {n k : Nat} (hn : n ≤ infinitySteps) (hk : k ≤ infinitySteps)
    (h : ofSteps false n = ofSteps false k) : n = k := by
  have hle := (le_ofSteps_iff n k).1
  have hge := (le_ofSteps_iff k n).1
  have hself := (le_ofSteps_iff k k).2 le_rfl
  rw [h] at hle hge
  have := hle hself
  have := hge hself
  omega

end LunchRush.Number
