import LunchRush.Load.Error
/-!
# The shape of a load run

How many users send orders, for how long, how many each at most, and how long they think between
two orders.
-/

namespace LunchRush

/-- The shape of a load run. -/
structure LoadConfig where
  users : Nat := 10
  duration : Duration := .ofSecs 60
  /-- How many orders a user sends at most. -/
  maxRequests : Option Nat := none
  minWait : Duration := .ofSecs 1
  maxWait : Duration := .ofSecs 2
deriving DecidableEq, Repr

namespace LoadConfig

/-- A short run without think time. -/
def testing : LoadConfig := ⟨2, .ofSecs 30, some 5, .zero, .zero⟩

/-- The rules of a run: somebody sends orders, and the bounds of the think time are in order. -/
def check (c : LoadConfig) : Except LoadError Unit :=
  if c.users = 0 then .error .noUsers
  else if c.maxWait < c.minWait then .error (.waitsReversed c.minWait c.maxWait)
  else .ok ()

theorem check_eq_ok_iff (c : LoadConfig) :
    c.check = .ok () ↔ c.users ≠ 0 ∧ ¬ c.maxWait < c.minWait := by
  unfold check
  split
  · simp_all
  · split <;> simp_all

end LoadConfig

end LunchRush
