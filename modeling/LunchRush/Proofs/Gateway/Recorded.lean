import LunchRush.Gateway.Basic
/-!
# Which calls a gateway gets

`Recorded γ` answers as `γ` does and writes down every call with its answer, so that a statement
can say which calls a run made, whatever the gateway answered.
-/

namespace LunchRush

/-- A call of a gateway with its answer. -/
inductive Call where
  | health (healthy : Bool)
  | register (registration : Registration) (answer : Except GatewayError Restaurant)
  | list (area : Area) (answer : Except GatewayError (List Restaurant))
  | post (endpoint : String) (payload : Json) (answer : Except GatewayError Json)
  | place (order : Order) (answer : Except GatewayError Reply)

/-- Whether a call places an order. -/
def Call.isPlacement : Call → Bool
  | .place _ _ => true
  | _ => false

/-- The order of a call that places one. -/
def Call.order? : Call → Option Order
  | .place order _ => some order
  | _ => none

/-- A gateway and the calls that it got, the first one first. -/
structure Recorded (γ : Type) where
  inner : γ
  calls : List Call

namespace Recorded

variable {γ : Type} [Gateway γ]

instance : Gateway (Recorded γ) where
  isHealthy g :=
    let (answer, inner) := Gateway.isHealthy g.inner
    (answer, ⟨inner, g.calls ++ [.health answer]⟩)
  register registration g :=
    let (answer, inner) := Gateway.register registration g.inner
    (answer, ⟨inner, g.calls ++ [.register registration answer]⟩)
  list area g :=
    let (answer, inner) := Gateway.list area g.inner
    (answer, ⟨inner, g.calls ++ [.list area answer]⟩)
  post endpoint payload g :=
    let (answer, inner) := Gateway.post endpoint payload g.inner
    (answer, ⟨inner, g.calls ++ [.post endpoint payload answer]⟩)
  place order g :=
    let (answer, inner) := Gateway.place order g.inner
    (answer, ⟨inner, g.calls ++ [.place order answer]⟩)

end Recorded

end LunchRush
