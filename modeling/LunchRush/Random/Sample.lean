import LunchRush.Random.Whole
/-!
# Distinct positions

Some of the positions below a length, each at most once and in any order: the last position that
is still missing from the choice is let in as often as one that is drawn twice.
-/

namespace LunchRush.Random

variable {σ : Type} [Source σ]

/-- Puts `new` in front of the first `old`. -/
def insertBefore (old new : Nat) : List Nat → List Nat
  | [] => [new]
  | x :: xs => if x = old then new :: x :: xs else x :: insertBefore old new xs

/-- One more position: `t`, or `limit` right before `t` if `t` was chosen already. -/
def choose (limit t : Nat) (chosen : List Nat) : List Nat :=
  if chosen.contains t then insertBefore t limit chosen else chosen ++ [t]

/-- Chooses at the limits `limit`, `limit + 1`, … in turn, each time among the positions up to
it. -/
def sampleFrom : (count limit : Nat) → (chosen : List Nat) → Draw σ (List Nat)
  | 0, _, chosen => return chosen
  | count + 1, limit, chosen => do
    let t ← between32 0 limit
    sampleFrom count (limit + 1) (choose limit t chosen)

/-- `count` distinct positions below `length`. -/
def sample (length count : Nat) : Draw σ (List Nat) := sampleFrom count (length - count) []

end LunchRush.Random
