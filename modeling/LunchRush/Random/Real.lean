import LunchRush.Random.Source
import LunchRush.Number.Rounding
/-!
# Floats in a range

A float of a range is its lower end plus a multiple of a step. The span is made as long as it can
be without the last step passing the upper end.
-/

namespace LunchRush.Random

open Number

variable {σ : Type} [Source σ]

/-- The greatest fraction that 52 bits give: 1 - 2^-52. -/
def lastFraction : Float := nearest false (Nat.pow 2 52 - 1) (Nat.pow 2 52)

/-- The span of a range: its lower end, and the factor for a fraction. -/
structure Span where
  low : Float
  factor : Float

/-- The factor is taken down float by float until its last step does not pass `high`. -/
def shorten (low high : Float) : (fuel : Nat) → (factor : Float) → Float
  | 0, factor => factor
  | fuel + 1, factor =>
    if high < factor * lastFraction + low then shorten low high fuel (below factor) else factor

/-- The span from `low` to `high`. -/
def Span.of (low high : Float) : Except Fault Span :=
  if !(low ≤ high) then .error .emptyRange
  else
    let factor := (high - low) / lastFraction
    if !factor.isFinite then .error .unboundedRange
    else .ok ⟨low, shorten low high factor.toBits.toNat factor⟩

/-- The float of a span for a word of 64 bits, of which the high 52 bits count. -/
def Span.at (s : Span) (word : Nat) : Float :=
  nearest false (word / Nat.pow 2 12) (Nat.pow 2 52) * s.factor + s.low

/-- A float from `low` to `high`, ends included. -/
def uniform (low high : Float) : Draw σ Float := do
  let span ← Span.of low high
  let word ← word64
  return span.at word

end LunchRush.Random
