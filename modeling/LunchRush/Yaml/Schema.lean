import LunchRush.Number.Decimal
/-!
# What plain scalars stand for

A plain scalar without a tag is null, a truth value or a number if it looks like one, and a text
otherwise. A writer must quote a text that would be taken for something else.
-/

namespace LunchRush.Yaml

/-- The words for nothing. -/
def isNullWord (s : String) : Bool := ["null", "Null", "NULL", "~"].contains s

/-- The words for the two truth values. -/
def isBoolWord (s : String) : Bool :=
  ["true", "True", "TRUE", "false", "False", "FALSE"].contains s

/-- The value of a digit in a base up to 16. -/
def radixDigit? (radix : Nat) (c : Char) : Option Nat :=
  let value :=
    if c.isDigit then some (c.toNat - '0'.toNat)
    else if 'a' ≤ c ∧ c ≤ 'f' then some (c.toNat - 'a'.toNat + 10)
    else if 'A' ≤ c ∧ c ≤ 'F' then some (c.toNat - 'A'.toNat + 10)
    else none
  value.filter (· < radix)

/-- The number of a row of digits, at least one. -/
def radixNumber? (radix : Nat) (cs : List Char) : Option Nat :=
  if cs.isEmpty then none
  else cs.foldl (fun n c => return radix * (← n) + (← radixDigit? radix c)) (some 0)

/-- A whole number in base 16, 8 or 2. It must fit 128 bits with its sign. -/
def isRadixNumber (cs : List Char) : Bool :=
  let (negative, cs) := Number.takeSign cs
  let limit := if negative then Nat.pow 2 127 + 1 else Nat.pow 2 128
  let number := match cs with
    | '0' :: 'x' :: digits => radixNumber? 16 digits
    | '0' :: 'o' :: digits => radixNumber? 8 digits
    | '0' :: 'b' :: digits => radixNumber? 2 digits
    | _ => none
  number.any (· < limit)

/-- Digits after a zero, which are a text, so that they keep the zero. -/
def isPaddedNumber (cs : List Char) : Bool :=
  match (Number.takeSign cs).2 with
  | '0' :: digits => !digits.isEmpty && digits.all Char.isDigit
  | _ => false

/-- The float that a plain scalar stands for. A decimal must not overflow. -/
def floatOfPlain? (s : String) : Option Float :=
  if [".inf", ".Inf", ".INF", "+.inf", "+.Inf", "+.INF"].contains s then some (Number.infinity false)
  else if ["-.inf", "-.Inf", "-.INF"].contains s then some (Number.infinity true)
  else if [".nan", ".NaN", ".NAN"].contains s then some Number.nan
  else
    match Number.Decimal.ofChars? s.toList with
    | some d => some d.toFloat |>.filter Float.isFinite
    | none => none

/-- Whether a plain scalar is anything but a text, or a text only for the zeros in front. -/
def needsQuotes (s : String) : Bool :=
  s.isEmpty || isNullWord s || isBoolWord s || isRadixNumber s.toList || isPaddedNumber s.toList ||
    (floatOfPlain? s).isSome

end LunchRush.Yaml
