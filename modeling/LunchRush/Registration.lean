import LunchRush.Menu
/-!
# Registrations

What a restaurant sends to be listed: who it is, where it is and the menu it asks for.
-/

namespace LunchRush

/-- Whether a text looks like an address: something before the only at-sign, and after it a domain
with a dot that is neither its first nor its last character. -/
def isAddress (email : String) : Bool :=
  let (user, domain) := email.toList.span (· != '@')
  match domain with
  | '@' :: domain =>
    !user.isEmpty && domain.contains '.' && domain.head? != some '.' &&
      domain.getLast? != some '.' && !domain.contains '@'
  | _ => false

def isHexDigit (c : Char) : Bool :=
  c.isDigit || ('a' ≤ c && c ≤ 'f') || ('A' ≤ c && c ≤ 'F')

/-- Digits in base 16 in groups of 8, 4, 4, 4 and 12 with hyphens between them. -/
def isHyphenated (cs : List Char) : Bool :=
  cs.length == 36 &&
    cs.zipIdx.all fun (c, i) => if [8, 13, 18, 23].contains i then c == '-' else isHexDigit c

/-- The forms of a UUID: 32 digits, hyphenated, hyphenated in braces, and hyphenated after
`urn:uuid:` in any case. -/
def isSecretKey (key : String) : Bool :=
  let cs := key.toList
  (cs.length == 32 && cs.all isHexDigit) || isHyphenated cs ||
    (cs.head? == some '\x7b' && cs.getLast? == some '\x7d' && isHyphenated (cs.drop 1).dropLast) ||
    ((cs.take 9).map Char.toLower == "urn:uuid:".toList && isHyphenated (cs.drop 9))

/-- A request to list a restaurant. -/
structure Registration where
  name : String
  email : String
  secretKey : String
  latitude : Float
  longitude : Float
  menus : List MenuTemplate
deriving DecidableEq, Repr

/-- A registration that the gateway accepts. The rules are checked in the order of the fields. -/
def Registration.new (name email secretKey : String) (latitude longitude : Float)
    (menus : List MenuTemplate) : Except Violation Registration :=
  open Bounds in
  if Text.isBlank name then .error (.blank .name)
  else if !isAddress email then .error (.invalidEmail email)
  else if !isSecretKey secretKey then .error (.invalidSecretKey secretKey)
  else if !within latitudeMin latitudeMax latitude then
    .error (.latitudeOutside latitude latitudeMin latitudeMax)
  else if !within longitudeMin longitudeMax longitude then
    .error (.longitudeOutside longitude longitudeMin longitudeMax)
  else if menus.length < menuMin || menuMax < menus.length then .error (.menuSize menus.length)
  else .ok ⟨name, email, secretKey, latitude, longitude, menus⟩

end LunchRush
