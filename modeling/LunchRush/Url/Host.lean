import LunchRush.Url.Domain
/-!
# Hosts

Whose URL it is: a domain or an address. Where the scheme is a special one, a name that ends in a
number must be an address; elsewhere a name is kept as it is written.
-/

namespace LunchRush.Url

/-- Why a text is no URL. -/
inductive Invalid where
  | noScheme
  | emptyHost
  | badDomain
  | badIpv4
  | badIpv6
  | badHostCharacter
  | badPort
deriving DecidableEq, Repr

/-- What is said about it. -/
def Invalid.message : Invalid → String
  | .noScheme => "relative URL without a base"
  | .emptyHost => "empty host"
  | .badDomain => "invalid international domain name"
  | .badIpv4 => "invalid IPv4 address"
  | .badIpv6 => "invalid IPv6 address"
  | .badHostCharacter => "invalid domain character"
  | .badPort => "invalid port number"

/-- A domain or an address. -/
inductive Host where
  | domain (name : String)
  | ipv4 (address : Nat)
  | ipv6 (parts : List Nat)
deriving DecidableEq, Repr

namespace Host

/-- The host that has no name: it is named, but by nothing. -/
def nameless : Host := .domain ""

def isNameless (h : Host) : Bool := h == nameless

/-- The host as it is written in a URL. -/
def text : Host → String
  | .domain name => name
  | .ipv4 address => ipv4Text address
  | .ipv6 parts => s!"[{ipv6Text parts}]"

/-- The address between brackets. -/
def ofBracketed (rest : List Char) : Except Invalid Host :=
  match rest.getLast? with
  | some ']' =>
    match ipv6? rest.dropLast with
    | some parts => .ok (.ipv6 parts)
    | none => .error .badIpv6
  | _ => .error .badIpv6

/-- The host of a URL with a special scheme. -/
def ofSpecial [Names] : List Char → Except Invalid Host
  | '[' :: rest => ofBracketed rest
  | cs =>
    match domain? cs with
    | none => .error .badDomain
    | some [] => .error .emptyHost
    | some name =>
      if endsInNumber name then
        match ipv4? name with
        | some address => .ok (.ipv4 address)
        | none => .error .badIpv4
      else .ok (.domain (String.ofList name))

/-- The characters that no host holds. -/
def forbidden : List Char := '\x00' :: "\t\n\r #/:<>?@[\\]^|".toList

/-- The host of a URL with another scheme; it may be empty. -/
def ofPlain : List Char → Except Invalid Host
  | '[' :: rest => ofBracketed rest
  | cs =>
    if cs.any forbidden.contains then .error .badHostCharacter
    else .ok (.domain (String.ofList (percentEncode (fun _ => false) cs)))

end Host

end LunchRush.Url
