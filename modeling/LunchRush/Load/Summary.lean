import LunchRush.Load.Error
import LunchRush.Load.Outcome
import LunchRush.Number.Rounding
import LunchRush.Random.Source
/-!
# Summary of a load run

Every attempt is recorded as it ends, in whatever order that happens. `Summary.finish` derives the
rate of failures, the average latency and the latency that 95 of 100 orders kept.
-/

namespace LunchRush

/-- The figures of a load run. -/
structure Summary where
  users : Nat
  elapsedMillis : Nat := 0
  /-- The orders that were sent. -/
  requests : Nat := 0
  successes : Nat := 0
  failures : Nat := 0
  /-- The failures without an answer. -/
  transportFailures : Nat := 0
  skipped : Nat := 0
  /-- How many answers had each status, by status. -/
  statusCounts : List (Nat × Nat) := []
  averageMillis : Nat := 0
  p95Millis : Nat := 0
  errorRate : Float := 0.0
  /-- The latency of every order that was sent, in any order. -/
  latencies : List Nat := []
deriving DecidableEq, Repr

namespace Summary

def new (users : Nat) : Summary := { users }

/-- The whole milliseconds of a latency, at most what 64 bits hold. -/
def millisOf (d : Duration) : Nat := min d.millis (Nat.pow 2 64 - 1)

/-- Counts a status once more; the statuses stay in order. -/
def countStatus (status : Nat) : List (Nat × Nat) → List (Nat × Nat)
  | [] => [(status, 1)]
  | (s, n) :: rest =>
    if status < s then (status, 1) :: (s, n) :: rest
    else if status = s then (s, n + 1) :: rest
    else (s, n) :: countStatus status rest

/-- Records an order that was sent. -/
def recordSent (s : Summary) (status : Option Nat) (latency : Duration) : Summary :=
  { s with
    requests := s.requests + 1
    statusCounts := status.elim s.statusCounts (countStatus · s.statusCounts)
    latencies := millisOf latency :: s.latencies }

/-- Records an attempt. An attempt that was skipped has no latency. -/
def record (s : Summary) (outcome : Outcome) (latency : Duration) : Summary :=
  match outcome with
  | .skipped => { s with skipped := s.skipped + 1 }
  | .success status => { s with successes := s.successes + 1 }.recordSent (some status) latency
  | .failure (some status) _ =>
    { s with failures := s.failures + 1 }.recordSent (some status) latency
  | .failure none _ =>
    { s with
      failures := s.failures + 1
      transportFailures := s.transportFailures + 1 }.recordSent none latency

/-- The share of orders whose latency the percentile bounds. -/
def share : Float := 0.95

/-- The place of the percentile among `count` latencies in order: the product with the share is
rounded to a float and then up. -/
def p95Index (count : Nat) : Nat :=
  let (num, den) := ((Number.Binary.ofFloat? share).map Number.Binary.ratio).getD (0, 1)
  min (Number.ceiling (Number.nearest false (count * num) den) - 1) (count - 1)

/-- The average of the latencies in whole milliseconds. Their sum is kept in 64 bits, and a greater one
stops the program. -/
def average (latencies : List Nat) : Except Fault Nat :=
  let total := latencies.foldr (· + ·) 0
  if total < Nat.pow 2 64 then .ok (total / latencies.length) else .error .sumOverflow

/-- The share of `part` in `whole`. Both are rounded to floats before they are divided. -/
def rate (part whole : Nat) : Float := Number.ofNat part / Number.ofNat whole

/-- The figures that need no latencies. They are there before the others are derived, and stay when that
fails. -/
def timed (s : Summary) (elapsed : Duration) : Summary :=
  { s with
    elapsedMillis := millisOf elapsed
    errorRate := if s.requests = 0 then s.errorRate else rate s.failures s.requests }

/-- Derives the figures of a run that took `elapsed`. -/
def finish (s : Summary) (elapsed : Duration) : Except Fault Summary :=
  if s.latencies.isEmpty then .ok (s.timed elapsed)
  else do
    let averageMillis ← average s.latencies
    let latencies := s.latencies.mergeSort
    let p95Millis := latencies[p95Index latencies.length]?.getD s.p95Millis
    return { s.timed elapsed with averageMillis, p95Millis, latencies }

/-- Whether the error rate and the percentile keep their budgets. What is not a number is no budget
that can be exceeded. -/
def checkBudgets (s : Summary) (maxErrorRate : Option Float) (maxP95 : Option Nat) :
    Except LoadError Unit :=
  match maxErrorRate.filter (· < s.errorRate), maxP95.filter (· < s.p95Millis) with
  | some budget, _ => .error (.errorRateExceeded s.errorRate budget)
  | none, some budget => .error (.p95Exceeded s.p95Millis budget)
  | none, none => .ok ()

/-- The summary as JSON. -/
def toJson (s : Summary) : Json :=
  .record [("users", .ofNat s.users), ("elapsed_ms", .ofNat s.elapsedMillis),
    ("requests", .ofNat s.requests), ("successes", .ofNat s.successes),
    ("failures", .ofNat s.failures), ("transport_failures", .ofNat s.transportFailures),
    ("skipped", .ofNat s.skipped),
    ("status_counts", .record (s.statusCounts.map fun (status, n) => (toString status, .ofNat n))),
    ("avg_latency_ms", .ofNat s.averageMillis), ("p95_latency_ms", .ofNat s.p95Millis),
    ("error_rate", .float s.errorRate)]

end Summary

end LunchRush
