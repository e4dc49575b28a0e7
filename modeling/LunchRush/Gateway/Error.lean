/-!
# Failed calls

Why a call of the gateway brought no answer that can be used.
-/

namespace LunchRush

/-- Why a call failed. -/
inductive GatewayError where
  /-- The gateway answered with a status other than a success. -/
  | status (code : Nat) (body : String)
  /-- No answer came. -/
  | transport (reason : String) (timeout : Bool)
  /-- The answer could not be read. -/
  | decode (reason : String)
  /-- No request could be made of the configuration. -/
  | invalidConfig (reason : String)
deriving DecidableEq, Repr

namespace GatewayError

/-- The body that came with a status, unless it is empty. -/
def body? : GatewayError → Option String
  | .status _ body => if body.isEmpty then none else some body
  | _ => none

/-- The status of the answer. -/
def status? : GatewayError → Option Nat
  | .status code _ => some code
  | _ => none

/-- Whether the wait for an answer ran out. -/
def isTimeout : GatewayError → Bool
  | .transport _ timeout => timeout
  | _ => false

/-- What is said about a failed call. -/
def message : GatewayError → String
  | .status code body =>
    if body.isEmpty then s!"gateway returned status {code}"
    else s!"gateway returned status {code} - Body: {body}"
  | .transport reason timeout =>
    if timeout then s!"request timed out: {reason}" else s!"transport error: {reason}"
  | .decode reason => s!"unexpected response body: {reason}"
  | .invalidConfig reason => s!"invalid client config: {reason}"

end GatewayError

end LunchRush
