/-!
# Rounded quotients

A quotient of naturals rounded to the nearest natural, with the rule for a tie as a parameter.
`roundDiv_le` and `le_roundDiv` say that it is one of the two neighbours of the exact quotient.
-/

namespace LunchRush.Number

/-- Where a value goes that lies exactly between two neighbours. -/
inductive Tie where
  /-- To the neighbour that is even. -/
  | toEven
  /-- To the neighbour farther from zero. -/
  | away
deriving DecidableEq, Repr

/-- Whether the upper neighbour of `quotient` is taken when the remainder is `twice / 2` of
`divisor`. -/
def Tie.roundsUp (tie : Tie) (quotient twice divisor : Nat) : Bool :=
  divisor < twice || (twice == divisor && (tie == .away || quotient % 2 == 1))

/-- The natural nearest to `num / den`. -/
def roundDiv (num den : Nat) (tie : Tie) : Nat :=
  let quotient := num / den
  if tie.roundsUp quotient (2 * (num % den)) den then quotient + 1 else quotient

theorem le_roundDiv (num den : Nat) (tie : Tie) : num / den ≤ roundDiv num den tie := by
  unfold roundDiv; dsimp only; split <;> omega

theorem roundDiv_le (num den : Nat) (tie : Tie) : roundDiv num den tie ≤ num / den + 1 := by
  unfold roundDiv; dsimp only; split <;> omega

/-- A digit's value, 0 to 9. -/
def digitValue (c : Char) : Nat := c.toNat - '0'.toNat

/-- The digits of a number in base 10, without leading zeros. -/
def decimalDigits (n : Nat) : List Char := Nat.toDigits 10 n

/-- The number that a row of decimal digits stands for. -/
def ofDigits (cs : List Char) : Nat := cs.foldl (fun n c => 10 * n + digitValue c) 0

end LunchRush.Number
