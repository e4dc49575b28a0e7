import LunchRush.Number.Decimal
/-!
# Flags

What is written on a command line: flags with two dashes, whose value follows or stands behind an
equals sign, and plain words. A flag is given once at most, and its value is checked as soon as it
is read.
-/

namespace LunchRush.Command

/-- A whole number of 64 bits, with a plus sign at most. -/
def whole? (s : String) : Option Nat :=
  let digits := match s.toList with
    | '+' :: rest => rest
    | cs => cs
  if digits.isEmpty || !digits.all Char.isDigit then none
  else some (Number.ofDigits digits) |>.filter (· < Nat.pow 2 64)

/-- What the value of a flag may be. -/
inductive ValueKind where
  | text
  /-- A text that is not empty. -/
  | path
  | whole
  | real
deriving DecidableEq, Repr

def ValueKind.accepts : ValueKind → String → Bool
  | .text, _ => true
  | .path, s => !s.isEmpty
  | .whole, s => (whole? s).isSome
  | .real, s => (Number.floatOfChars? s.toList).isSome

/-- A flag; a switch has no value. -/
structure Flag where
  name : String
  value : Option ValueKind
deriving DecidableEq, Repr

/-- Why arguments do not tell what to do. -/
inductive Stop where
  /-- They break a rule. -/
  | usage
  /-- They ask for help. -/
  | help
  /-- They ask for the version. -/
  | version
deriving DecidableEq, Repr

/-- An argument. -/
inductive Argument where
  | flag (name : String) (attached : Option String)
  | letter (c : Char)
  /-- Two dashes, after which every argument is a word. -/
  | dashes
  | word (s : String)
deriving DecidableEq, Repr

def Argument.ofString (s : String) : Argument :=
  match s.toList with
  | ['-', '-'] => .dashes
  | '-' :: '-' :: rest =>
    let attached := match rest.dropWhile (· != '=') with
      | _ :: value => some (String.ofList value)
      | [] => none
    .flag (String.ofList (rest.takeWhile (· != '='))) attached
  | '-' :: c :: _ => .letter c
  | _ => .word s

/-- The flags that were given, with their values; a switch has an empty one. -/
abbrev Given := List (String × String)

/-- The flags that may stand somewhere. -/
structure Grammar where
  flags : List Flag
  /-- Whether the version may be asked for. -/
  versioned : Bool
deriving DecidableEq, Repr

namespace Grammar

/-- Adds a flag, if it may have this value and was not given before. -/
def give (kind : Option ValueKind) (name value : String) (given : Given) : Except Stop Given :=
  if given.any (·.1 == name) || !kind.all (·.accepts value) then .error .usage
  else .ok (given ++ [(name, value)])

/-- The flags at the start of some arguments, after those already given, and the first word with
all that comes after it. -/
def read (x : Grammar) (given : Given) : List String → Except Stop (Given × List String)
  | [] => .ok (given, [])
  | arg :: rest =>
    match Argument.ofString arg with
    | .word _ => .ok (given, arg :: rest)
    | .dashes => if rest.isEmpty then .ok (given, []) else .error .usage
    | .letter c =>
      if c = 'h' then .error .help
      else if c = 'V' && x.versioned then .error .version
      else .error .usage
    | .flag name attached =>
      match x.flags.find? (·.name == name), attached with
      | none, none =>
        if name = "help" then .error .help
        else if name = "version" && x.versioned then .error .version
        else .error .usage
      | none, some _ => .error .usage
      | some ⟨_, none⟩, none =>
        match give none name "" given with
        | .ok given => read x given rest
        | .error e => .error e
      | some ⟨_, none⟩, some _ => .error .usage
      | some ⟨_, some kind⟩, some value =>
        match give (some kind) name value given with
        | .ok given => read x given rest
        | .error e => .error e
      | some ⟨_, some kind⟩, none =>
        match rest with
        | [] => .error .usage
        | value :: rest =>
          if Argument.ofString value = .word value then
            match give (some kind) name value given with
            | .ok given => read x given rest
            | .error e => .error e
          else .error .usage

end Grammar

end LunchRush.Command
