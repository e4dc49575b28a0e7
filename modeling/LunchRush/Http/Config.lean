import LunchRush.Text.Blank
import LunchRush.Time.Duration
/-!
# Configuration of the client

Where the gateway is, who calls it, and how long its answers are waited for.
-/

namespace LunchRush.Http

/-- What a client is told. -/
structure Config where
  baseUrl : String := "http://localhost:8080"
  token : Option String := none
  requestTimeout : Duration := .ofSecs 30
  healthTimeout : Duration := .ofSecs 5
  listTimeout : Duration := .ofSecs 10
deriving DecidableEq, Repr

namespace Config

/-- A client that does not wait long. -/
def testing (baseUrl : String) : Config :=
  { baseUrl
    requestTimeout := .ofSecs 2
    healthTimeout := .ofMillis 500
    listTimeout := .ofSecs 1 }

/-- Sets the token; a blank one is none. -/
def withToken (c : Config) (token : Option String) : Config :=
  { c with token := token.filter (!Text.isBlank ·) }

/-- The base URL without slashes at its end. -/
def base (c : Config) : String :=
  String.ofList (c.baseUrl.toList.reverse.dropWhile (· == '/')).reverse

end Config

end LunchRush.Http
