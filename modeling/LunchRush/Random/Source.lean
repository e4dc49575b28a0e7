import LunchRush.Violation
/-!
# Random words and draws

Everything random is drawn from a source of 32-bit words. The generator's source is fixed by its
seed, but no draw asks which source it reads: a statement about draws holds for every stream of
words. A draw that meets a fault leaves its source where it was.
-/

namespace LunchRush

/-- What comes instead of an answer: a defect stops the program where it arises, or the program goes
on for ever. -/
inductive Fault where
  /-- A number is to be drawn, and every word that the source still has is passed over. -/
  | endless
  /-- A float is to be drawn from a range whose lower end is not below its upper end. -/
  | emptyRange
  /-- A float is to be drawn from a range that no float can measure. -/
  | unboundedRange
  /-- A number of seconds is no duration. -/
  | noDuration
  /-- An instant would lie past the end of the clock. -/
  | clockOverflow
  /-- A drawn value breaks a rule that it was drawn to keep. -/
  | invalidDraw (reason : Violation)
  /-- A sum of latencies is more than 64 bits hold. -/
  | sumOverflow
deriving DecidableEq, Repr

namespace Random

/-- A source of words. -/
class Source (σ : Type) where
  next : σ → UInt32 × σ

/-- A value that depends on the words of a source. -/
abbrev Draw (σ α : Type) := StateT σ (Except Fault) α

variable {σ : Type} [Source σ]

/-- The next word as a number below 2^32, and the source behind it. -/
def read32 (s : σ) : Nat × σ := ((Source.next s).1.toNat, (Source.next s).2)

/-- The next two words as a number below 2^64, the low word first. -/
def read64 (s : σ) : Nat × σ :=
  ((read32 s).1 + Nat.pow 2 32 * (read32 (read32 s).2).1, (read32 (read32 s).2).2)

def word32 : Draw σ Nat := fun s => .ok (read32 s)

def word64 : Draw σ Nat := fun s => .ok (read64 s)

/-- Draws a number of times and collects what was drawn. -/
def times {α : Type} : (n : Nat) → Draw σ α → Draw σ (List α)
  | 0, _ => return []
  | n + 1, draw => do
    let x ← draw
    let xs ← times n draw
    return x :: xs

/-- Any stream of words is a source, read from a position on. -/
structure Stream where
  words : Nat → UInt32
  position : Nat

instance : Source Stream where
  next s := (s.words s.position, { s with position := s.position + 1 })

end Random

end LunchRush
