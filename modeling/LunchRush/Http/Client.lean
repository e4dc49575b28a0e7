import LunchRush.Gateway.Basic
import LunchRush.Http.Config
import LunchRush.Http.Exchange
import LunchRush.Json.Printer
import LunchRush.Number.Layout
import LunchRush.Text.Base64
import LunchRush.Text.Quoted
import LunchRush.Url.Parser
import LunchRush.Wire.Read
import LunchRush.Wire.Write
/-!
# The gateway over a network

A call becomes a request, and its result is read off the response. The base URL is read when the
client is made and again for each call, with the endpoint written behind it.
-/

namespace LunchRush.Http

/-- Somebody who calls a gateway. -/
structure Client where
  base : String
  authorization : Option String
  config : Config
deriving DecidableEq, Repr

namespace Client

/-- Whether a character may stand in a header: no control character but the tab. -/
def isHeaderChar (c : Char) : Bool := c == '\t' || (0x20 ≤ c.toNat && c.toNat != 0x7f)

/-- The header that carries a token. Blanks at the end of a header do not count. -/
def bearer (token : String) : Except GatewayError String :=
  if token.toList.all isHeaderChar then
    let kept := token.toList.reverse.dropWhile fun c => c == ' ' || c == '\t'
    .ok ("Bearer " ++ String.ofList kept.reverse)
  else .error (.invalidConfig "invalid auth header: failed to parse header value")

/-- The header that carries a name and a password. -/
def basic (username : String) (password : Option String) : String :=
  "Basic " ++ String.ofList (Text.base64 (username ++ ":" ++ password.getD "").toUTF8.toList)

variable [Url.Names]

/-- A client, unless its base URL or its token can never be used. -/
def ofConfig (c : Config) : Except GatewayError Client := do
  match Url.parse c.base with
  | .error e =>
    .error (.invalidConfig s!"invalid base url {Text.quoted c.base}: {e.message}")
  | .ok url =>
    if !url.isHosted then
      .error (.invalidConfig s!"base url {Text.quoted c.base} has no host")
    return ⟨c.base, ← c.token.mapM bearer, c⟩

/-- The address of an endpoint. -/
def address (c : Client) (endpoint : String) : String :=
  if endpoint.startsWith "/" then c.base ++ endpoint else c.base ++ "/" ++ endpoint

/-- Who calls. A name and a password in a URL come before the token. -/
def authorizationFor (c : Client) (u : Url) : Option String :=
  match u.credentials? with
  | some (username, password) => some (basic username password)
  | none => c.authorization

/-- A request for an endpoint. -/
def request (c : Client) (method : Method) (endpoint : String) (pairs : List (String × String))
    (body : Option String) (timeout : Duration) : Except RequestError Request :=
  match Url.parse (c.address endpoint) with
  | .error _ => .error { kind := .builder }
  | .ok u =>
    let url := u.asked.withPairs pairs
    if isWeb url && isWritten url then .ok ⟨method, url, c.authorizationFor u, body, timeout⟩
    else .error { kind := .builder, url := some url }

/-- A request that asks whether the gateway is ready. -/
def healthRequest (c : Client) : Except RequestError Request :=
  c.request .get Endpoint.health [] none c.config.healthTimeout

/-- A request that sends a value to an endpoint. -/
def jsonRequest (c : Client) (endpoint : String) (value : Json) : Except RequestError Request :=
  c.request .post endpoint [] (some (Json.compact value)) c.config.requestTimeout

/-- The area as the query of a listing. -/
def areaPairs (a : Area) : List (String × String) :=
  let written (x : Float) : String := Number.Layout.query.show x
  [("Latitude", written a.latitude), ("Longitude", written a.longitude),
    ("RadiusKm", written a.radiusKm)]

/-- A request for the restaurants of an area. -/
def listRequest (c : Client) (a : Area) : Except RequestError Request :=
  c.request .post Endpoint.restaurants (areaPairs a) none c.config.listTimeout

end Client

namespace Response

/-- The value that a response brings. -/
def value {α : Type} (read? : String → Option α) (r : Response) : Except GatewayError α :=
  if !isServed r.status then .error (.status r.status (r.text.toOption.getD ""))
  else
    match r.text with
    | .error e => .error e.toGatewayError
    | .ok body =>
      match read? body with
      | some a => .ok a
      | none => .error (.decode "the body does not have the expected shape")

/-- The reply that a response is, whatever its status. -/
def reply (r : Response) : Except GatewayError Reply :=
  match r.text with
  | .ok body => .ok ⟨r.status, body⟩
  | .error e => .error e.toGatewayError

end Response

/-- A client and its network. -/
structure Connection (ν : Type) where
  client : Client
  network : ν

namespace Connection

variable {ν : Type} [Network ν]

/-- Sends a request, if there is one, and receives the response. -/
def exchange (request : Except RequestError Request) (c : Connection ν) :
    Except RequestError Response × Connection ν :=
  match request with
  | .error e => (.error e, c)
  | .ok request =>
    let (outcome, network) := transmit redirectsMax request c.network
    (outcome, { c with network })

/-- Sends a request, if there is one, and reads the response. -/
def call {α : Type} (request : Except RequestError Request) (read : Response → Except GatewayError α)
    (c : Connection ν) : Except GatewayError α × Connection ν :=
  let (outcome, c) := c.exchange request
  ((outcome.mapError RequestError.toGatewayError).bind read, c)

variable [Url.Names]

/-- Whether the gateway says that it is ready. -/
def isHealthy (c : Connection ν) : Bool × Connection ν :=
  let (outcome, c) := c.exchange c.client.healthRequest
  ((outcome.map Response.status).toOption == some 200, c)

instance : Gateway (Connection ν) where
  isHealthy := isHealthy
  register r c :=
    c.call (c.client.jsonRequest Endpoint.register r.toJson) (Response.value Restaurant.ofJson?)
  list area c := c.call (c.client.listRequest area) (Response.value listingOfJson?)
  post endpoint payload c :=
    c.call (c.client.jsonRequest endpoint payload) (Response.value Json.read?)
  place order c :=
    c.call (c.client.jsonRequest Endpoint.orders order.toJson) Response.reply

end Connection

end LunchRush.Http
