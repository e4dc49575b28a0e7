import LunchRush.Json.Tree
import LunchRush.Json.Value
/-!
# The values of JSON text

A number without point and exponent that fits 64 bits is whole; any other is a float. The float of
a numeral is the one that its leading digits, as many as fit 64 bits, give when they are scaled by
a power of ten: one rounded product or quotient, and so not always the nearest float.
-/

namespace LunchRush.Json

/-- The leading digits of a numeral, as many as fit 64 bits. -/
structure Leading where
  significand : Nat
  exponent : Int

/-- Whether a digit can be appended. -/
def Leading.fits (significand digit : Nat) : Bool := 10 * significand + digit < Nat.pow 2 64

/-- Digits before the point: those that do not fit any more count as zeros. -/
def Leading.whole (significand : Nat) : List Char → Leading
  | [] => ⟨significand, 0⟩
  | c :: cs =>
    let digit := Number.digitValue c
    if Leading.fits significand digit then Leading.whole (10 * significand + digit) cs
    else ⟨significand, cs.length + 1⟩

/-- Digits after the point: from the first that does not fit on they are dropped. -/
def Leading.fraction (l : Leading) : List Char → Leading
  | [] => l
  | c :: cs =>
    let digit := Number.digitValue c
    if Leading.fits l.significand digit then
      Leading.fraction ⟨10 * l.significand + digit, l.exponent - 1⟩ cs
    else l

/-- `x * 10 ^ exponent`, or none when that overflows. A small power is divided out in parts. -/
def scaledBy : (fuel : Nat) → Float → Int → Option Float
  | 0, x, _ => some x
  | fuel + 1, x, exponent =>
    let power := Number.nearest false (Nat.pow 10 exponent.natAbs) 1
    if exponent.natAbs ≤ 308 then
      if 0 ≤ exponent then
        let y := x * power
        if y.isInf then none else some y
      else some (x / power)
    else if x == 0 then some x
    else if 0 ≤ exponent then none
    else scaledBy fuel (x / Number.nearest false (Nat.pow 10 308) 1) (exponent + 308)

/-- The float of a numeral, or none when it overflows. -/
def Numeral.float? (n : Numeral) : Option Float := do
  let whole := Leading.whole 0 n.whole
  let leading := whole.fraction (n.fraction.getD [])
  let exponent := leading.exponent + n.exponent.getD 0
  let x ← scaledBy 8 (UInt64.ofNat leading.significand).toFloat (max exponent (-100000) |> min 100000)
  some (if n.negative then -x else x)

/-- The value of a numeral: whole when it is written so and fits, and minus zero is a float. -/
def Numeral.value? (n : Numeral) : Option Json :=
  let whole := Number.ofDigits n.whole
  if n.fraction.isNone && n.exponent.isNone && whole < Nat.pow 2 64 then
    if !n.negative then some (.int whole)
    else if 0 < whole && whole ≤ Nat.pow 2 63 then some (.int (-(whole : Int)))
    else n.float?.map .float
  else n.float?.map .float

mutual

/-- The value of a tree, unless a number overflows or a text is broken. -/
def ofTree? : Tree → Option Json
  | .null => some .null
  | .bool b => some (.bool b)
  | .number n => n.value?
  | .text s => s.map .text
  | .list items => (ofItems? items).map .list
  | .record fields => (ofFields? fields).map fun fields => .record (sortFields fields)

def ofItems? : List Tree → Option (List Json)
  | [] => some []
  | item :: items => do
    let item ← ofTree? item
    let items ← ofItems? items
    some (item :: items)

def ofFields? : List (Option String × Tree) → Option (List (String × Json))
  | [] => some []
  | (key, value) :: fields => do
    let key ← key
    let value ← ofTree? value
    let fields ← ofFields? fields
    some ((key, value) :: fields)

end

/-- The value of a JSON text, its records in key order. Lists and records nest at most 127 deep. -/
def read? (s : String) : Option Json := do
  let tree ← Tree.read? s
  if tree.depth ≤ 127 then ofTree? tree else none

/-- The number that a value is, as a float. -/
def float? : Json → Option Float
  | .int n => some (if n < 0 then -(UInt64.ofNat n.natAbs).toFloat else (UInt64.ofNat n.natAbs).toFloat)
  | .float x => some x
  | _ => none

end LunchRush.Json
