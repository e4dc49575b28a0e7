import LunchRush.Number.Quotient
/-!
# The exact value of a float

A finite float is `mantissa * 2 ^ exponent` with a sign, and everything this library prints or
reads about floats is settled on these naturals: `Binary.ofFloat?` takes a float apart, `nearest`
finds the float next to a ratio, ties going to the even mantissa.
-/

namespace LunchRush.Number

/-- A finite binary number: `mantissa * 2 ^ exponent`, negated when `negative`. -/
structure Binary where
  negative : Bool
  mantissa : Nat
  exponent : Int
deriving DecidableEq, Repr

/-- The sign bit; that of a zero counts too. -/
def isNegative (x : Float) : Bool := x.toBits.toNat / Nat.pow 2 63 == 1

/-- The exact value of a float, when it is finite. -/
def Binary.ofFloat? (x : Float) : Option Binary :=
  let bits := x.toBits.toNat
  let biased : Nat := bits / Nat.pow 2 52 % Nat.pow 2 11
  let fraction : Nat := bits % Nat.pow 2 52
  if biased = 2047 then none
  else if biased = 0 then some ⟨isNegative x, fraction, -1074⟩
  else some ⟨isNegative x, Nat.pow 2 52 + fraction, (biased : Int) - 1075⟩

/-- The float `steps` places above zero in the order of the floats, or its negative. Past the
largest finite float every place is infinity. -/
def ofSteps (negative : Bool) (steps : Nat) : Float :=
  Float.ofBits (UInt64.ofNat (min steps (2047 * Nat.pow 2 52) + if negative then Nat.pow 2 63 else 0))

/-- A power of two above or below a fraction line. -/
def scale (num den : Nat) (exponent : Int) : Nat × Nat :=
  if 0 ≤ exponent then (num, den * Nat.pow 2 exponent.toNat) else (num * Nat.pow 2 (-exponent).toNat, den)

/-- The exponent of the last bit that a float near `num / den` has: the quotient by that power of
two has at most 53 bits. -/
def lastBit (num den : Nat) : Int :=
  let guess := max ((num.log2 : Int) - den.log2 - 53) (-1074)
  let scaled := scale num den guess
  if Nat.pow 2 53 * scaled.2 ≤ scaled.1 then guess + 1 else guess

/-- The float nearest to `num / den`, a tie going to the even mantissa. -/
def nearest (negative : Bool) (num den : Nat) : Float :=
  if num = 0 then ofSteps negative 0
  else
    let exponent := lastBit num den
    let scaled := scale num den exponent
    ofSteps negative ((exponent + 1074).toNat * Nat.pow 2 52 + roundDiv scaled.1 scaled.2 .toEven)

/-- The float nearest to a natural number. -/
def ofNat (n : Nat) : Float := nearest false n 1

/-- The value as a ratio of naturals, without its sign. -/
def Binary.ratio (b : Binary) : Nat × Nat :=
  if 0 ≤ b.exponent then (b.mantissa * Nat.pow 2 b.exponent.toNat, 1)
  else (b.mantissa, Nat.pow 2 (-b.exponent).toNat)

end LunchRush.Number
