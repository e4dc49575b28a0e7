import LunchRush.Random.Source
/-!
# Whole numbers in a range

A word is multiplied by the size of the range; the high part of the product is the answer and the
low part decides whether the word counts, so that every answer has equally many words. Words that
do not count are passed over, however many they are: where no word counts there is no answer.
-/

namespace LunchRush.Random

section Search

variable {σ : Type} (read : σ → Nat × σ) (counts : Nat → Bool)

/-- The first number that counts, and the source behind it. There is none where every number is
passed over. -/
def search (s : σ) : Option (Nat × σ) :=
  if counts (read s).1 then some (read s) else by apply search; exact (read s).2
partial_fixpoint

/-- The same among the next `tries` numbers. -/
def searchAmong : (tries : Nat) → (s : σ) → Option (Nat × σ)
  | 0, _ => none
  | tries + 1, s =>
    if counts (read s).1 then some (read s) else searchAmong tries (read s).2

/-- The search without end can only be run. Here it comes behind one that can also be evaluated, and
which is hardly ever in vain. -/
def firstCounting (s : σ) : Option (Nat × σ) :=
  (searchAmong read counts 64 s).orElse fun _ => search read counts s

end Search

variable {σ : Type} [Source σ]

/-- Whether a number of `bits` bits counts for a range of size `n`: the low part of the product is
at most `zone`. -/
def counts (bits zone n v : Nat) : Bool := v * n % Nat.pow 2 bits ≤ zone

/-- A number below `n` from the first number of `bits` bits that counts. -/
def multiplied (read : σ → Nat × σ) (bits zone n : Nat) : Draw σ Nat := fun s =>
  match firstCounting read (counts bits zone n) s with
  | some (v, s) => .ok (v * n / Nat.pow 2 bits, s)
  | none => .error .endless

/-- The greatest multiple of `n` by a power of two that fits `bits` bits, less one. -/
def shiftedZone (bits n : Nat) : Nat := n * Nat.pow 2 (bits - (n.log2 + 1)) - 1

/-- The greatest multiple of `n` that fits 32 bits, less one. -/
def multipleZone (n : Nat) : Nat := Nat.pow 2 32 - 1 - (Nat.pow 2 32 - n) % n

/-- A number below `n`, from words of 32 bits. -/
def lessThan32 (n : Nat) : Draw σ Nat := multiplied read32 32 (shiftedZone 32 n) n

/-- A number below `n`, from words of 64 bits. -/
def lessThan64 (n : Nat) : Draw σ Nat := multiplied read64 64 (shiftedZone 64 n) n

/-- A number below `n` for ranges of 16 bits: from words of 32 bits, passing over fewer of them. -/
def lessThan16 (n : Nat) : Draw σ Nat := multiplied read32 32 (multipleZone n) n

/-- A number from `low` to `high`, ends included, from words of 32 bits. -/
def between32 (low high : Nat) : Draw σ Nat := return low + (← lessThan32 (high - low + 1))

/-- A number from `low` to `high`, ends included, from words of 64 bits. -/
def between64 (low high : Nat) : Draw σ Nat := return low + (← lessThan64 (high - low + 1))

/-- The position of one of `n` things; there is none, and no word is drawn, when `n` is zero. -/
def index (n : Nat) : Draw σ (Option Nat) :=
  if n = 0 then return none else return some (← lessThan64 n)

/-- One of a list of words of text; nothing when the list is empty. -/
def pick (words : List String) : Draw σ String := do
  let i ← lessThan32 words.length
  return words.getD i ""

end LunchRush.Random
