import LunchRush.Number.Shortest
import LunchRush.Number.Decimal
/-!
# How a float is written

The digits are always the shortest ones; a `Layout` says how they are set. Messages never use an
exponent, documents use one for very large and very small numbers.
-/

namespace LunchRush.Number

/-- The decisions of a written form. -/
structure Layout where
  /-- The exponents of the first digit that are written without an exponent. -/
  lowest : Int
  highest : Int
  /-- Whether a whole number ends in `.0`. -/
  point : Bool
  /-- Whether a positive exponent has a plus sign. -/
  plus : Bool
  tie : Tie
  nan : String
  infinity : String
  negativeInfinity : String

/-- Numbers in messages: `100`, `0.0000001`, `-0`. -/
def Layout.message : Layout := ⟨-400, 400, false, false, .away, "NaN", "inf", "-inf"⟩

/-- Numbers in JSON text: `100.0`, `1e+16`, and null for what JSON cannot write. -/
def Layout.json : Layout := ⟨-5, 15, true, true, .toEven, "null", "null", "null"⟩

/-- Numbers in YAML text: `100.0`, `1e16`, `.inf`. -/
def Layout.yaml : Layout := ⟨-5, 15, true, false, .toEven, ".nan", ".inf", "-.inf"⟩

/-- Numbers in the query of a URL: `100.0`, `1e16`. -/
def Layout.query : Layout := ⟨-5, 15, true, false, .toEven, "NaN", "inf", "-inf"⟩

/-- Digits with a point after the first `whole` ones; zeros fill up on either side. -/
def Layout.positional (l : Layout) (digits : List Char) (whole : Int) : List Char :=
  if whole ≤ 0 then '0' :: '.' :: List.replicate (-whole).toNat '0' ++ digits
  else if (digits.length : Int) ≤ whole then
    digits ++ List.replicate (whole.toNat - digits.length) '0' ++ if l.point then ['.', '0'] else []
  else digits.take whole.toNat ++ '.' :: digits.drop whole.toNat

/-- One digit, the others after a point, and the exponent of the first. -/
def Layout.scientific (l : Layout) (digits : List Char) (exponent : Int) : List Char :=
  let mantissa := match digits with
    | first :: more@(_ :: _) => first :: '.' :: more
    | digits => digits
  let sign := if exponent < 0 then ['-'] else if l.plus then ['+'] else []
  mantissa ++ 'e' :: sign ++ decimalDigits exponent.natAbs

/-- The written form of `coefficient * 10 ^ exponent`. -/
def Layout.digits (l : Layout) (coefficient : Nat) (exponent : Int) : List Char :=
  if coefficient = 0 then '0' :: if l.point then ['.', '0'] else []
  else
    let digits := decimalDigits coefficient
    let first := (digits.length : Int) - 1 + exponent
    if l.lowest ≤ first && first ≤ l.highest then l.positional digits (first + 1)
    else l.scientific digits first

/-- The written form of a finite number. -/
def Layout.finite (l : Layout) (b : Binary) : List Char :=
  let (coefficient, exponent) := if b.mantissa = 0 then (0, 0) else b.shortest l.tie
  (if b.negative then ['-'] else []) ++ l.digits coefficient exponent

/-- The written form of a float. -/
def Layout.show (l : Layout) (x : Float) : String :=
  match Binary.ofFloat? x with
  | some b => String.ofList (l.finite b)
  | none => if x.isNaN then l.nan else if isNegative x then l.negativeInfinity else l.infinity

/-- A float in a message. -/
def shown (x : Float) : String := Layout.message.show x

/-- The digits of `n` with a point before the last `places` ones. -/
def withPoint (n places : Nat) : List Char :=
  let digits := decimalDigits n
  let digits := List.replicate (places + 1 - digits.length) '0' ++ digits
  let whole := digits.length - places
  digits.take whole ++ if places = 0 then [] else '.' :: digits.drop whole

/-- A float with a fixed number of places. The exact value is rounded, a tie going to the even
digit, and a zero keeps its sign. -/
def fixed (places : Nat) (x : Float) : String :=
  match Binary.ofFloat? x with
  | some b =>
    let (num, den) := b.ratio
    let digits := withPoint (roundDiv (num * Nat.pow 10 places) den .toEven) places
    String.ofList ((if b.negative then ['-'] else []) ++ digits)
  | none => shown x

end LunchRush.Number
