import LunchRush.Number.Binary
/-!
# Rounding floats

Coordinates and prices are rounded to a number of decimals, by scaling with a power of ten,
rounding to a whole number and scaling back. Every step is a float operation, so the result is the
float that those steps give and not always the nearest decimal.
-/

namespace LunchRush.Number

/-- The nearest whole number, a half going away from zero. -/
def roundAway (x : Float) : Float :=
  match Binary.ofFloat? x with
  | none => x
  | some b =>
    if 0 ≤ b.exponent then x
    else nearest b.negative (roundDiv b.ratio.1 b.ratio.2 .away) 1

/-- Repeated squaring: `result * base ^ power`. -/
def powerFrom : (fuel : Nat) → (result base : Float) → (power : Nat) → Float
  | 0, result, _, _ => result
  | fuel + 1, result, base, power =>
    let result := if power % 2 = 1 then result * base else result
    if power / 2 = 0 then result else powerFrom fuel result (base * base) (power / 2)

/-- Ten to a power. A negative power is the inverse of the positive one. -/
def powerOfTen (power : Int) : Float :=
  let positive := powerFrom (power.natAbs + 1) 1.0 10.0 power.natAbs
  if power < 0 then 1.0 / positive else positive

/-- The value rounded to a number of decimals. -/
def roundTo (x : Float) (decimals : Int) : Float :=
  let factor := powerOfTen decimals
  roundAway (x * factor) / factor

/-- Whether rounding moves the value by less than a billionth. -/
def hasDecimals (x : Float) (decimals : Int) : Bool :=
  (roundTo x decimals - x).abs < 1e-9

/-- The next float below a positive one. -/
def below (x : Float) : Float := Float.ofBits (x.toBits - 1)

/-- The least whole number that is not below a float; zero for a negative one. -/
def ceiling (x : Float) : Nat :=
  match Binary.ofFloat? x with
  | none => 0
  | some b => if b.negative then 0 else (b.ratio.1 + b.ratio.2 - 1) / b.ratio.2

end LunchRush.Number
