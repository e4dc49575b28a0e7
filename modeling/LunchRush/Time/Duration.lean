import LunchRush.Number.Rounding
/-!
# Spans of time

A duration counts nanoseconds, and its whole seconds fit 64 bits. Durations meet floats where a
think time is drawn: `toSeconds` rounds, and `ofSeconds?` refuses what is no duration.
-/

namespace LunchRush

/-- A nanosecond less than 2^64 seconds. -/
def Duration.maxNanos : Nat := Nat.pow 2 64 * Nat.pow 10 9 - 1

/-- A span of time in nanoseconds. -/
structure Duration where
  nanos : Nat
  bounded : nanos ≤ Duration.maxNanos := by decide
deriving DecidableEq, Repr

namespace Duration

/-- A number of nanoseconds, or the longest duration if that is too many. -/
def ofNanos (n : Nat) : Duration := ⟨min n maxNanos, Nat.min_le_right ..⟩

/-- A number of milliseconds. -/
def ofMillis (n : Nat) : Duration := ofNanos (n * Nat.pow 10 6)

/-- A number of seconds. -/
def ofSecs (n : Nat) : Duration := ofNanos (n * Nat.pow 10 9)

def zero : Duration := ⟨0, Nat.zero_le _⟩

instance : LE Duration := ⟨fun a b => a.nanos ≤ b.nanos⟩
instance : LT Duration := ⟨fun a b => a.nanos < b.nanos⟩
instance (a b : Duration) : Decidable (a ≤ b) := inferInstanceAs (Decidable (a.nanos ≤ b.nanos))
instance (a b : Duration) : Decidable (a < b) := inferInstanceAs (Decidable (a.nanos < b.nanos))

/-- The whole seconds. -/
def secs (d : Duration) : Nat := d.nanos / Nat.pow 10 9

/-- The nanoseconds past the last whole second. -/
def subsecNanos (d : Duration) : Nat := d.nanos % Nat.pow 10 9

/-- The whole milliseconds. -/
def millis (d : Duration) : Nat := d.nanos / Nat.pow 10 6

theorem secs_lt (d : Duration) : d.secs < Nat.pow 2 64 := by
  have := d.bounded
  simp only [secs, maxNanos, Nat.pow_eq] at *
  omega

/-- The length in seconds: the whole seconds and the fraction are rounded, and so is their sum. -/
def toSeconds (d : Duration) : Float :=
  (UInt64.ofNat d.secs).toFloat + (UInt64.ofNat d.subsecNanos).toFloat / 1e9

/-- The duration nearest to a number of seconds, a tie going to the even nanosecond. There is none
for a negative number, for 2^64 seconds or more, and for what is not a number. -/
def ofSeconds? (x : Float) : Option Duration :=
  match Number.Binary.ofFloat? x with
  | none => none
  | some b =>
    let n := Number.roundDiv (b.ratio.1 * Nat.pow 10 9) b.ratio.2 .toEven
    if b.negative && b.mantissa != 0 then none
    else if h : n ≤ maxNanos then some ⟨n, h⟩
    else none

/-- `whole` and the fraction of `unit`, without trailing zeros. -/
def showParts (whole fraction places : Nat) (unit : String) : String :=
  let digits := Number.decimalDigits fraction
  let digits := List.replicate (places - digits.length) '0' ++ digits
  let digits := (digits.reverse.dropWhile (· == '0')).reverse
  toString whole ++ (if digits.isEmpty then "" else "." ++ String.ofList digits) ++ unit

/-- The length in the largest unit of which there is a whole one: `60s`, `1.5µs`, `0ns`. -/
def shown (d : Duration) : String :=
  if 0 < d.secs then showParts d.secs d.subsecNanos 9 "s"
  else if Nat.pow 10 6 ≤ d.nanos then showParts (d.nanos / Nat.pow 10 6) (d.nanos % Nat.pow 10 6) 6 "ms"
  else if Nat.pow 10 3 ≤ d.nanos then showParts (d.nanos / Nat.pow 10 3) (d.nanos % Nat.pow 10 3) 3 "µs"
  else showParts d.nanos 0 0 "ns"

end Duration

end LunchRush
