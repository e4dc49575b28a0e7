import LunchRush.Http.Exchange
/-!
# A server that follows a script

A network with one server whose answers are laid down beforehand. It keeps the requests that reach
it; nobody answers elsewhere.
-/

namespace LunchRush.Http

/-- What the server does with a request. -/
inductive Answer where
  /-- A response; `missing` bytes of its body never come. -/
  | response (status : Nat) (body : List UInt8) (missing : Nat) (location : Option Url)
  /-- The connection is closed. -/
  | close
  /-- Nothing is sent. -/
  | hang
deriving DecidableEq, Repr

namespace Answer

/-- Whether a response of a status has no body. -/
def isBodiless (status : Nat) : Bool := status == 204 || status == 304

/-- What comes of an answer. -/
def outcome : Answer → Except Silence Response
  | .response status body missing location =>
    if isBodiless status then .ok ⟨status, [], true, location⟩ else .ok ⟨status, body, missing == 0, location⟩
  | .close => .error .broken
  | .hang => .error .timedOut

end Answer

/-- A server at an address. -/
structure ScriptedServer where
  host : Url.Host
  port : Nat
  answers : List Answer
  /-- The requests that came, the first one first. -/
  requests : List Request := []
deriving DecidableEq, Repr

namespace ScriptedServer

/-- The answer to what the script does not foresee. -/
def unforeseen : Response := ⟨404, "404 page not found".toUTF8.toList, true, none⟩

/-- Whether a request reaches the server. -/
def serves (s : ScriptedServer) (r : Request) : Bool :=
  r.url.scheme == "http" && r.url.host == some s.host && r.url.effectivePort? == some s.port

/-- Takes a request. One that may not wait at all is given up before it gets there. -/
def send (r : Request) (s : ScriptedServer) : Except Silence Response × ScriptedServer :=
  if r.timeout = .zero then (.error .timedOut, s)
  else if !s.serves r then (.error .broken, s)
  else
    let s := { s with requests := s.requests ++ [r] }
    match s.answers with
    | [] => (.ok unforeseen, s)
    | answer :: answers => (answer.outcome, { s with answers })

instance : Network ScriptedServer := ⟨send⟩

end ScriptedServer

end LunchRush.Http
