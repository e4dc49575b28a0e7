import LunchRush.Number.Quotient
import LunchRush.Url.Basic
/-!
# Reading URLs

A text is read from the left: the scheme up to a colon, the authority up to a slash, a question mark
or a hash sign, then the path, the query and the fragment. Blanks around the text and line breaks
and tabs inside it count for nothing. In a special scheme a backslash is a slash, and any number of
slashes may stand before the authority.
-/

namespace LunchRush.Url

/-- The text that counts: without blanks and control characters at the ends, without tabs and line
breaks inside. -/
def significant (cs : List Char) : List Char :=
  let isMargin (c : Char) : Bool := c.toNat ≤ 0x20
  let trimmed := ((cs.dropWhile isMargin).reverse.dropWhile isMargin).reverse
  trimmed.filter fun c => c != '\t' && c != '\n' && c != '\r'

/-- Whether a character may stand in a scheme after its first letter. -/
def isSchemeChar (c : Char) : Bool := c.isAlphanum || c == '+' || c == '-' || c == '.'

/-- The scheme, and what comes after its colon. -/
def scheme? (cs : List Char) : Option (String × List Char) :=
  match cs.dropWhile isSchemeChar with
  | ':' :: rest =>
    match cs.takeWhile isSchemeChar with
    | [] => none
    | first :: others =>
      if first.isAlpha then some (String.ofList ((first :: others).map Char.toLower), rest) else none
  | _ => none

/-- Whether a character ends an authority. -/
def endsAuthority (special : Bool) (c : Char) : Bool :=
  c == '/' || c == '?' || c == '#' || (special && c == '\\')

/-- Whether a character separates segments. -/
def isSlash (special : Bool) (c : Char) : Bool := c == '/' || (special && c == '\\')

/-- What stands before the last sign that ends name and password, and after it. -/
def splitAtLast (mark : Char) (cs : List Char) : Option (List Char × List Char) :=
  let reversed := cs.reverse
  match reversed.dropWhile (· != mark) with
  | [] => none
  | _ :: before => some (before.reverse, (reversed.takeWhile (· != mark)).reverse)

/-- Name and password. A password that is empty is none. -/
def credentials (cs : List Char) : String × Option String :=
  let encoded (cs : List Char) : String := String.ofList (percentEncode inUserinfo cs)
  let password := match cs.dropWhile (· != ':') with
    | ':' :: d :: rest => some (encoded (d :: rest))
    | _ => none
  (encoded (cs.takeWhile (· != ':')), password)

/-- The host at the start of a text and what comes after it: a colon ends it outside brackets. -/
def takeHost : (bracketed : Bool) → List Char → List Char × List Char
  | _, [] => ([], [])
  | bracketed, c :: rest =>
    if c = ':' && !bracketed then ([], c :: rest)
    else
      let bracketed := if c = '[' then true else if c = ']' then false else bracketed
      let (host, rest) := takeHost bracketed rest
      (c :: host, rest)

/-- The port after a host. No digits mean no port. -/
def port? (scheme : String) (cs : List Char) : Except Invalid (Option Nat) :=
  let digits := cs.takeWhile Char.isDigit
  let number := Number.ofDigits digits
  if 65535 < number then .error .badPort
  else
    match cs.dropWhile Char.isDigit with
    | [] => .ok (if digits.isEmpty || defaultPort? scheme == some number then none else some number)
    | _ => .error .badPort

/-- The host and the port of an authority without name and password. -/
def hostAndPort [Names] (scheme : String) (special : Bool) (cs : List Char) :
    Except Invalid (Host × Option Nat) := do
  let (name, rest) := takeHost false cs
  if special && name.isEmpty then .error .emptyHost
  let host ← if special then Host.ofSpecial name else Host.ofPlain name
  match rest with
  | ':' :: digits =>
    if name.isEmpty then .error .emptyHost
    else return (host, ← port? scheme digits)
  | _ => return (host, none)

/-- The authority of a URL; `rest` is what comes after it. -/
def authority? [Names] (scheme : String) (special : Bool) (cs rest : List Char) : Except Invalid Url := do
  match splitAtLast '@' cs with
  | none =>
    let (host, port) ← hostAndPort scheme special cs
    return { scheme, host := some host, port }
  | some (before, after) =>
    if before.isEmpty && after.isEmpty && !rest.isEmpty then .error .emptyHost
    let (username, password) := credentials before
    let (host, port) ← hostAndPort scheme special after
    if host.isNameless && (!username.isEmpty || password.isSome) then .error .emptyHost
    return { scheme, username, password, host := some host, port }

/-- The segments between slashes. -/
def segments (special : Bool) (cs : List Char) : List (List Char) :=
  splitOn '/' (cs.map fun c => if isSlash special c then '/' else c)

/-- The path after an authority. A special scheme has always one. -/
def pathOf (special : Bool) : List Char → Path
  | [] => .segments (if special then [""] else [])
  | c :: rest => .ofWritten (segments special (if isSlash special c then rest else c :: rest))

/-- The path of a URL without an authority. -/
def barePath : List Char → Path
  | '/' :: rest => pathOf false ('/' :: rest)
  | cs => .name (String.ofList (percentEncode (fun _ => false) cs))

/-- The URL with the query and the fragment that stand after its path. -/
def withSuffix (u : Url) (special : Bool) (cs : List Char) : Url :=
  let encoded (mark : Char → Bool) (cs : List Char) : String := String.ofList (percentEncode mark cs)
  let fragment := match cs.dropWhile (· != '#') with
    | _ :: rest => some (encoded inFragment rest)
    | [] => none
  let query := match cs.takeWhile (· != '#') with
    | '?' :: rest => some (encoded (inQuery special) rest)
    | _ => none
  { u with query, fragment }

/-- Whether a character ends a path. -/
def endsPath (c : Char) : Bool := c == '?' || c == '#'

/-- The URL that goes on with a path, a query and a fragment. -/
def withRest (u : Url) (special : Bool) (read : List Char → Path) (rest : List Char) : Url :=
  { u with path := read (rest.takeWhile (!endsPath ·)) }.withSuffix special
    (rest.dropWhile (!endsPath ·))

/-- A URL from its authority on. -/
def fromAuthority [Names] (scheme : String) (special : Bool) (cs : List Char) : Except Invalid Url := do
  let rest := cs.dropWhile (!endsAuthority special ·)
  let u ← authority? scheme special (cs.takeWhile (!endsAuthority special ·)) rest
  return u.withRest special (pathOf special) rest

/-- The drive that a path starts with, and what comes after it. -/
def drive? : Path → Option (List Char × List String)
  | .segments (first :: rest) => if isDrive first.toList then some (first.toList, rest) else none
  | _ => none

/-- The path without empty segments at its start. -/
def trimmedPath : Path → Path
  | .segments names =>
    match names.dropWhile (·.isEmpty) with
    | [] => .segments [""]
    | names => .segments names
  | path => path

/-- The URL of a file at a host. Where it names a drive the host has no name, and the drive is
written with a colon. -/
def fileAt (host : Host) (rest : List Char) : Url :=
  let u := { scheme := "file", host := some host : Url }.withRest true (pathOf true) rest
  match drive? u.path with
  | some (drive, names) =>
    { u with
      host := some .nameless
      path := .segments (String.ofList (drive.take 1 ++ [':']) :: names) }
  | none => { u with path := trimmedPath u.path }

/-- The URL of a file. -/
def ofFile [Names] : List Char → Except Invalid Url
  | a :: b :: rest =>
    if !isSlash true a || !isSlash true b then .ok (fileAt .nameless (a :: b :: rest))
    else
      let name := rest.takeWhile (!endsAuthority true ·)
      if name.isEmpty || isDrive name then .ok (fileAt .nameless rest)
      else
        (Host.ofSpecial name).map fun host =>
          fileAt (if host = .domain "localhost" then .nameless else host)
            (rest.dropWhile (!endsAuthority true ·))
  | rest => .ok (fileAt .nameless rest)

/-- The URL that a text stands for. -/
def parse [Names] (s : String) : Except Invalid Url :=
  match scheme? (significant s.toList) with
  | none => .error .noScheme
  | some (scheme, rest) =>
    if scheme = "file" then ofFile rest
    else if (defaultPort? scheme).isSome then
      fromAuthority scheme true (rest.dropWhile (isSlash true))
    else
      match rest with
      | '/' :: '/' :: rest => fromAuthority scheme false rest
      | rest => .ok ({ scheme : Url }.withRest false barePath rest)

end LunchRush.Url
