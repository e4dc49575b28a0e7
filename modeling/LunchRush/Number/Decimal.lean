import LunchRush.Number.Binary
/-!
# Reading decimal text

A decimal is `coefficient * 10 ^ exponent` with a sign; its float is the nearest one. `Decimal.ofChars?`
reads the usual notation: digits with an optional point and an optional exponent.
-/

namespace LunchRush.Number

/-- A decimal number: `coefficient * 10 ^ exponent`, negated when `negative`. -/
structure Decimal where
  negative : Bool
  coefficient : Nat
  exponent : Int
deriving DecidableEq, Repr

/-- The nearest float. The two outer cases keep the powers of ten small: beyond them the value is
larger than every float, or less than half the smallest one. -/
def Decimal.toFloat (d : Decimal) : Float :=
  if d.coefficient = 0 then ofSteps d.negative 0
  else if 400 < d.exponent then ofSteps d.negative (2047 * Nat.pow 2 52)
  else if d.coefficient.log2 + 1 + 3 * d.exponent < -1080 then ofSteps d.negative 0
  else if 0 ≤ d.exponent then nearest d.negative (d.coefficient * Nat.pow 10 d.exponent.toNat) 1
  else nearest d.negative d.coefficient (Nat.pow 10 (-d.exponent).toNat)

/-- The leading decimal digits and what follows them. -/
def takeDigits (cs : List Char) : List Char × List Char := cs.span Char.isDigit

/-- An optional sign; `true` stands for minus. -/
def takeSign : List Char → Bool × List Char
  | '-' :: cs => (true, cs)
  | '+' :: cs => (false, cs)
  | cs => (false, cs)

/-- The exponent part of a decimal: nothing, or `e` with digits that may have a sign. -/
def takeExponent? : List Char → Option (Int × List Char)
  | 'e' :: cs | 'E' :: cs =>
    let (negative, cs) := takeSign cs
    let (digits, rest) := takeDigits cs
    if digits.isEmpty then none
    else some (if negative then -(ofDigits digits : Int) else ofDigits digits, rest)
  | cs => some (0, cs)

/-- Digits, a point and digits, of which one side of the point may be empty. -/
def takeMantissa? (cs : List Char) : Option (List Char × List Char × List Char) :=
  let (whole, rest) := takeDigits cs
  let (fraction, rest) := match rest with
    | '.' :: cs => takeDigits cs
    | cs => ([], cs)
  if whole.isEmpty && fraction.isEmpty then none else some (whole, fraction, rest)

/-- A decimal without its sign. -/
def Decimal.ofUnsigned? (negative : Bool) (cs : List Char) : Option Decimal := do
  let (whole, fraction, rest) ← takeMantissa? cs
  let (exponent, rest) ← takeExponent? rest
  if rest.isEmpty then
    some ⟨negative, ofDigits (whole ++ fraction), exponent - fraction.length⟩
  else none

/-- The decimal that the whole text stands for. -/
def Decimal.ofChars? (cs : List Char) : Option Decimal :=
  let (negative, cs) := takeSign cs
  Decimal.ofUnsigned? negative cs

/-- The infinity of a sign. -/
def infinity (negative : Bool) : Float := ofSteps negative (2047 * Nat.pow 2 52)

/-- The value that is not a number. -/
def nan : Float := Float.ofBits 0x7ff8000000000000

/-- The float a text stands for: a decimal, or infinity or not-a-number by name in any case. -/
def floatOfChars? (cs : List Char) : Option Float :=
  match Decimal.ofChars? cs with
  | some d => some d.toFloat
  | none =>
    let (negative, name) := takeSign cs
    let name := String.ofList (name.map Char.toLower)
    if name = "inf" || name = "infinity" then some (infinity negative)
    else if name = "nan" then some nan
    else none

end LunchRush.Number
