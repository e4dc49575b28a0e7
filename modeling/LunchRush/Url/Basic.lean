import LunchRush.Url.Host
import LunchRush.Url.Path
/-!
# URLs

A URL in parts, and its text. The target is what a request for it asks the host for.
-/

namespace LunchRush

/-- A URL. -/
structure Url where
  scheme : String
  username : String := ""
  password : Option String := none
  host : Option Url.Host := none
  /-- The port, unless it is the one that the scheme stands for. -/
  port : Option Nat := none
  path : Url.Path := .segments []
  query : Option String := none
  fragment : Option String := none
deriving DecidableEq, Repr

namespace Url

/-- The ports of the special schemes. -/
def defaultPort? : String → Option Nat
  | "http" => some 80
  | "ws" => some 80
  | "https" => some 443
  | "wss" => some 443
  | "ftp" => some 21
  | _ => none

/-- Whether there is a host that has a name. -/
def isHosted (u : Url) : Bool := u.host.any (!·.isNameless)

/-- The port that is called. -/
def effectivePort? (u : Url) : Option Nat := u.port.or (defaultPort? u.scheme)

/-- A part with a mark in front, if it is there. -/
def marked (mark : String) : Option String → String
  | some s => mark ++ s
  | none => ""

/-- The name and the password with a sign after them, if there are any. -/
def userinfo (u : Url) : String :=
  let shown := u.username ++ marked ":" u.password
  if shown.isEmpty then "" else shown ++ "@"

/-- What stands between the scheme and the path. Without a host, a path must not look like one. -/
def authority (u : Url) : String :=
  match u.host with
  | some host => "//" ++ u.userinfo ++ host.text ++ marked ":" (u.port.map toString)
  | none => if u.path.text.startsWith "//" then "/." else ""

/-- The URL as text. -/
def text (u : Url) : String :=
  u.scheme ++ ":" ++ u.authority ++ u.path.text ++ marked "?" u.query ++ marked "#" u.fragment

/-- The path and the query. -/
def target (u : Url) : String := u.path.text ++ marked "?" u.query

/-- The text that a part stands for, unless its bytes are none. -/
def decoded? (part : String) : Option String := String.fromUTF8? ⟨(percentDecode part.toList).toArray⟩

/-- The name and the password that a caller shows. -/
def credentials? (u : Url) : Option (String × Option String) := do
  let username ← decoded? u.username
  let password := u.password.bind decoded?
  if username.isEmpty && password.isNone then none else some (username, password)

/-- The URL without name and password. -/
def anonymous (u : Url) : Url := { u with username := "", password := none }

/-- The URL that is asked for: a name and a password are not part of it when they can be shown otherwise. -/
def asked (u : Url) : Url := if u.credentials?.isSome then u.anonymous else u

/-- The URL with more pairs in its query. -/
def withPairs (u : Url) (pairs : List (String × String)) : Url :=
  if pairs.isEmpty then u
  else
    let added := String.intercalate "&" (pairs.map fun (key, value) => s!"{key}={value}")
    let before := (u.query.filter (!·.isEmpty)).elim "" (· ++ "&")
    { u with query := some (before ++ added) }

end Url

end LunchRush
