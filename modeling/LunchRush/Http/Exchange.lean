import LunchRush.Gateway.Error
import LunchRush.Text.Utf8
import LunchRush.Time.Duration
import LunchRush.Url.Basic
/-!
# Requests and responses

What goes over the network: requests, and the responses that may come. A network is any state that
takes requests, so a statement about calls can range over everything that a network may do. A response
may send the caller on to another URL, where the request is made again.
-/

namespace LunchRush.Http

inductive Method where
  | get
  | post
deriving DecidableEq, Repr

def Method.name : Method → String
  | .get => "GET"
  | .post => "POST"

/-- A request as it is sent. -/
structure Request where
  method : Method
  url : Url
  authorization : Option String
  /-- The JSON text that is sent along. -/
  body : Option String
  /-- How long a response is waited for. -/
  timeout : Duration
deriving DecidableEq, Repr

/-- The type of the body. -/
def Request.contentType? (r : Request) : Option String := r.body.map fun _ => "application/json"

/-- A response whose head has come. -/
structure Response where
  status : Nat
  /-- The bytes of the body as far as they came. -/
  body : List UInt8
  /-- Whether the body came to its end. -/
  whole : Bool := true
  /-- The location that the response names, as it is read from the URL of the request. -/
  location : Option Url := none
deriving DecidableEq, Repr

/-- Why no response comes. -/
inductive Silence where
  /-- The connection could not be made, or it broke. -/
  | broken
  | timedOut
deriving DecidableEq, Repr

/-- A state that takes requests. -/
class Network (ν : Type) where
  send : Request → ν → Except Silence Response × ν

/-! ## Errors -/

/-- What was being done when it failed. -/
inductive RequestError.Kind where
  /-- The request was put together. -/
  | builder
  /-- The request was sent. -/
  | request
  /-- A response sent the caller on. -/
  | redirect
  /-- The body was sent or received. -/
  | body
  /-- The body was read as text. -/
  | decode
  /-- The connection was put to another use. -/
  | upgrade
deriving DecidableEq, Repr

/-- Why a request brought no response, or a response no text. -/
structure RequestError where
  kind : RequestError.Kind
  url : Option Url := none
  /-- Whether the wait ran out. -/
  timedOut : Bool := false
deriving DecidableEq, Repr

/-- What is said about a kind of errors. -/
def RequestError.Kind.message : RequestError.Kind → String
  | .builder => "builder error"
  | .request => "error sending request"
  | .redirect => "error following redirect"
  | .body => "request or response body error"
  | .decode => "error decoding response body"
  | .upgrade => "error upgrading connection"

/-- What is said about an error. -/
def RequestError.message (e : RequestError) : String :=
  match e.url with
  | some url => s!"{e.kind.message} for url ({url.text})"
  | none => e.kind.message

/-- The failed call that an error makes. -/
def RequestError.toGatewayError (e : RequestError) : GatewayError :=
  match e.kind with
  | .decode => .decode e.message
  | .builder => .invalidConfig e.message
  | _ => .transport e.message e.timedOut

/-- A request that has no response. -/
def Silence.toError (u : Url) (s : Silence) : RequestError :=
  { kind := .request, url := some u, timedOut := s == .timedOut }

/-- The text of a body, unless it broke off. -/
def Response.text (r : Response) : Except RequestError String :=
  if r.whole then .ok (Text.ofBytes r.body) else .error { kind := .decode }

/-! ## Sending -/

/-- Whether a URL is of the web. -/
def isWeb (u : Url) : Bool := u.scheme == "http" || u.scheme == "https"

/-- Whether a URL can be written into a request. -/
def isWritten (u : Url) : Bool :=
  let unwritable (c : Char) : Bool := c == '"' || c == '\x60' || c == '\x7b' || c == '\x7d'
  u.host.any (!·.text.toList.any unwritable) && u.text.utf8ByteSize < 65535

/-- Whether two URLs have the same host, and the same port is called. -/
def isSameSite (u v : Url) : Bool := u.host == v.host && u.effectivePort? == v.effectivePort?

/-- The request that is made again at another URL. Who calls is only told to the same site. -/
def Request.movedTo (r : Request) (url : Url) : Request :=
  { r with url, authorization := if isSameSite r.url url then r.authorization else none }

/-- The request that follows a response which sends the caller on. By some statuses the caller is told to
get what is there, by others to send there what was sent. -/
def Request.next? (r : Request) (response : Response) : Option Request := do
  let url ← response.location.filter isWritten
  if [301, 302, 303].contains response.status then
    some { r.movedTo url with method := .get, body := none }
  else if [307, 308].contains response.status then some (r.movedTo url)
  else none

/-- How often a caller can be sent on. -/
def redirectsMax : Nat := 10

/-- Sends a request, and those that follow it. -/
def transmit {ν : Type} [Network ν] : (redirects : Nat) → Request → ν → Except RequestError Response × ν
  | redirects, r, network =>
    match Network.send r network with
    | (.error silence, network) => (.error (silence.toError r.url), network)
    | (.ok response, network) =>
      match r.next? response with
      | none => (.ok response, network)
      | some next =>
        match redirects with
        | 0 => (.error { kind := .redirect, url := some r.url }, network)
        | redirects + 1 =>
          if isWeb next.url then transmit redirects next network
          else (.error { kind := .builder, url := some next.url }, network)

end LunchRush.Http
