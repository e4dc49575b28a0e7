import LunchRush.Number.Layout
import LunchRush.Time.Duration
/-!
# Failed load runs

A run is refused when its configuration makes no sense, and judged afterwards by two budgets.
-/

namespace LunchRush

/-- Why a load run is refused, or what it failed. -/
inductive LoadError where
  | noUsers
  | waitsReversed (min max : Duration)
  | errorRateExceeded (rate budget : Float)
  | p95Exceeded (millis budget : Nat)
deriving DecidableEq, Repr

/-- How a budget is said to be exceeded. -/
def budgetMessage (metric : String) (value budget : Float) : String :=
  s!"{metric} {Number.shown value} exceeds budget {Number.shown budget}"

/-- What is said about it. Latencies are shown as floats. -/
def LoadError.message : LoadError → String
  | .noUsers => "invalid load config: users must be at least 1"
  | .waitsReversed min max =>
    s!"invalid load config: min wait {min.shown} exceeds max wait {max.shown}"
  | .errorRateExceeded rate budget => budgetMessage "error rate" rate budget
  | .p95Exceeded millis budget =>
    budgetMessage "p95 latency ms" (Number.ofNat millis) (Number.ofNat budget)

end LunchRush
