import LunchRush.Gateway.Basic
/-!
# A gateway that follows a script

A gateway whose answers are laid down beforehand: one for every listing, and one after the other for
registrations and orders. When a script ends, no answer comes any more.
-/

namespace LunchRush

/-- The answers that a gateway will give. -/
structure ScriptedGateway where
  healthy : Bool
  listing : Except GatewayError (List Restaurant)
  registrations : List (Except GatewayError Restaurant)
  orders : List (Except GatewayError Reply)

namespace ScriptedGateway

/-- What comes after the last answer. -/
def ended {α : Type} : Except GatewayError α := .error (.transport "script ended" false)

/-- The next answer and those after it. -/
def next {α : Type} : List (Except GatewayError α) → Except GatewayError α × List (Except GatewayError α)
  | [] => (ended, [])
  | answer :: rest => (answer, rest)

instance : Gateway ScriptedGateway where
  isHealthy g := (g.healthy, g)
  register _ g :=
    let (answer, rest) := next g.registrations
    (answer, { g with registrations := rest })
  list _ g := (g.listing, g)
  post _ _ g := (ended, g)
  place _ g :=
    let (answer, rest) := next g.orders
    (answer, { g with orders := rest })

end ScriptedGateway

end LunchRush
