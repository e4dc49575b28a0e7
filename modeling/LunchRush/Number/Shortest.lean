import LunchRush.Number.Binary
/-!
# The fewest digits that read back

The decimal a float is printed with: among the decimals that lie nearer to the float than to any
other one it has the fewest digits, and of those it is the nearest. Grids of decimals are tried
from coarse to fine; on each only the two neighbours of the value can be the answer.
-/

namespace LunchRush.Number

/-- The numbers that round to a float, over one denominator: the ends belong to it when
`closed`. -/
structure Interval where
  low : Nat
  value : Nat
  high : Nat
  denominator : Nat
  closed : Bool
deriving Repr

/-- Half the way to either neighbour; below a power of two the neighbour is half as far. -/
def Binary.interval (b : Binary) : Interval :=
  let below := if b.mantissa = Nat.pow 2 52 && -1074 < b.exponent then 1 else 2
  let (up, den) := scale 1 1 (2 - b.exponent)
  ⟨(4 * b.mantissa - below) * up, 4 * b.mantissa * up, (4 * b.mantissa + 2) * up, den,
    b.mantissa % 2 == 0⟩

/-- Whether `coefficient * 10 ^ exponent` rounds to the float. -/
def Interval.holds (i : Interval) (coefficient : Nat) (exponent : Int) : Bool :=
  let c := coefficient * Nat.pow 10 exponent.toNat * i.denominator
  let s := Nat.pow 10 (-exponent).toNat
  if i.closed then i.low * s ≤ c && c ≤ i.high * s else i.low * s < c && c < i.high * s

/-- The coefficient of the answer on the grid of multiples of `10 ^ exponent`, if it has one. -/
def Interval.onGrid? (i : Interval) (tie : Tie) (exponent : Int) : Option Nat :=
  let num := i.value * Nat.pow 10 (-exponent).toNat
  let den := i.denominator * Nat.pow 10 exponent.toNat
  let lower := num / den
  match 0 < lower && i.holds lower exponent, i.holds (lower + 1) exponent with
  | true, true => some (roundDiv num den tie)
  | true, false => some lower
  | false, true => some (lower + 1)
  | false, false => none

/-- Ten is taken out of the coefficient as often as it divides it. -/
def stripZeros : (fuel coefficient : Nat) → Int → Nat × Int
  | 0, c, e => (c, e)
  | fuel + 1, c, e => if c % 10 = 0 then stripZeros fuel (c / 10) (e + 1) else (c, e)

/-- The first grid with an answer, from `exponent` downwards. -/
def Interval.search (i : Interval) (tie : Tie) : (fuel : Nat) → (exponent : Int) → Nat × Int
  | 0, exponent => (i.value * Nat.pow 10 (-exponent).toNat / (i.denominator * Nat.pow 10 exponent.toNat), exponent)
  | fuel + 1, exponent =>
    match i.onGrid? tie exponent with
    | some coefficient => stripZeros 20 coefficient exponent
    | none => i.search tie fuel (exponent - 1)

/-- A power of ten above the value: 1233 / 4096 exceeds the logarithm of two. -/
def Binary.topExponent (b : Binary) : Int :=
  ((b.mantissa.log2 : Int) + 1 + b.exponent) * 1233 / 4096 + 1

/-- The shortest decimal of a number that is not zero, as its coefficient and exponent. -/
def Binary.shortest (b : Binary) (tie : Tie) : Nat × Int :=
  b.interval.search tie 24 b.topExponent

end LunchRush.Number
