import LunchRush.Number.Decimal
/-!
# Reading JSON text

`Tree.read?` accepts strict JSON text and keeps what it says before any of it is given a meaning:
a number stays a row of digits and a text says whether it holds half of a surrogate pair. So a
reader that ignores a field need not ask whether its number fits a float.
-/

namespace LunchRush.Json

/-- The parts of a number as they are written. -/
structure Numeral where
  negative : Bool
  whole : List Char
  /-- The digits after the point, if there is a point. -/
  fraction : Option (List Char)
  exponent : Option Int
deriving Repr

/-- What JSON text says. -/
inductive Tree where
  | null
  | bool (b : Bool)
  | number (n : Numeral)
  /-- There is no text when half of a surrogate pair stands alone. -/
  | text (s : Option String)
  | list (items : List Tree)
  | record (fields : List (Option String × Tree))

namespace Tree

def isJsonSpace (c : Char) : Bool := c == ' ' || c == '\n' || c == '\t' || c == '\r'

def skipSpace (cs : List Char) : List Char := cs.dropWhile isJsonSpace

/-- One unit of a quoted text: a character, or a 16-bit unit by its number. -/
inductive Piece where
  | char (c : Char)
  | unit (n : Nat)

/-- The value of a digit in base 16. -/
def hexValue? (c : Char) : Option Nat :=
  if c.isDigit then some (c.toNat - '0'.toNat)
  else if 'a' ≤ c ∧ c ≤ 'f' then some (c.toNat - 'a'.toNat + 10)
  else if 'A' ≤ c ∧ c ≤ 'F' then some (c.toNat - 'A'.toNat + 10)
  else none

/-- The number that a row of digits in base 16 stands for. -/
def hexNumber? (cs : List Char) : Option Nat :=
  cs.foldl (fun n c => return 16 * (← n) + (← hexValue? c)) (some 0)

/-- What a one-letter escape stands for. -/
def simpleEscape? : Char → Option Char
  | '"' => some '"'
  | '\\' => some '\\'
  | '/' => some '/'
  | 'b' => some '\x08'
  | 'f' => some '\x0c'
  | 'n' => some '\n'
  | 'r' => some '\r'
  | 't' => some '\t'
  | _ => none

/-- The pieces up to the closing quote, and what follows it. -/
def pieces? : List Char → Option (List Piece × List Char)
  | [] => none
  | '"' :: rest => some ([], rest)
  | '\\' :: 'u' :: a :: b :: c :: d :: rest => do
    let n ← hexNumber? [a, b, c, d]
    let (pieces, rest) ← pieces? rest
    some (.unit n :: pieces, rest)
  | '\\' :: e :: rest => do
    let c ← simpleEscape? e
    let (pieces, rest) ← pieces? rest
    some (.char c :: pieces, rest)
  | c :: rest =>
    if c.toNat < 0x20 then none
    else do
      let (pieces, rest) ← pieces? rest
      some (.char c :: pieces, rest)

/-- The first half of a surrogate pair. -/
def isHighHalf (n : Nat) : Bool := 0xd800 ≤ n && n < 0xdc00

/-- The second half of a surrogate pair. -/
def isLowHalf (n : Nat) : Bool := 0xdc00 ≤ n && n < 0xe000

/-- The characters of the pieces: two halves make one character, and none may stand alone. -/
def joinPieces? : List Piece → Option (List Char)
  | [] => some []
  | .char c :: rest => (joinPieces? rest).map (c :: ·)
  | .unit high :: .unit low :: rest =>
    if isHighHalf high then
      if isLowHalf low then
        (joinPieces? rest).map (Char.ofNat (0x10000 + (high - 0xd800) * 0x400 + (low - 0xdc00)) :: ·)
      else none
    else if isLowHalf high then none
    else (joinPieces? (.unit low :: rest)).map (Char.ofNat high :: ·)
  | .unit n :: rest =>
    if isHighHalf n || isLowHalf n then none else (joinPieces? rest).map (Char.ofNat n :: ·)

/-- A text after its opening quote. -/
def quoted? (cs : List Char) : Option (Option String × List Char) := do
  let (pieces, rest) ← pieces? cs
  some ((joinPieces? pieces).map String.ofList, rest)

/-- The digits before the point: no zero comes before other digits. -/
def wholePart? (cs : List Char) : Option (List Char × List Char) :=
  match Number.takeDigits cs with
  | ([], _) => none
  | ('0' :: _ :: _, _) => none
  | (digits, rest) => some (digits, rest)

/-- The point and the digits after it, at least one. -/
def fractionPart? : List Char → Option (Option (List Char) × List Char)
  | '.' :: cs =>
    match Number.takeDigits cs with
    | ([], _) => none
    | (digits, rest) => some (some digits, rest)
  | cs => some (none, cs)

/-- A number, from its sign on. -/
def numeral? (cs : List Char) : Option (Numeral × List Char) := do
  let (negative, cs) := match cs with
    | '-' :: cs => (true, cs)
    | cs => (false, cs)
  let (whole, cs) ← wholePart? cs
  let (fraction, cs) ← fractionPart? cs
  let (exponent, rest) ← Number.takeExponent? cs
  let marked := match cs with
    | 'e' :: _ | 'E' :: _ => true
    | _ => false
  some (⟨negative, whole, fraction, if marked then some exponent else none⟩, rest)

/-- A word that stands for a value. -/
def word? (word : String) (value : Tree) (cs : List Char) : Option (Tree × List Char) :=
  if word.toList.isPrefixOf cs then some (value, cs.drop word.length) else none

mutual

/-- A value after white space. -/
def value? : (fuel : Nat) → List Char → Option (Tree × List Char)
  | 0, _ => none
  | fuel + 1, cs =>
    match skipSpace cs with
    | '[' :: cs =>
      match skipSpace cs with
      | ']' :: rest => some (.list [], rest)
      | cs => (items? fuel cs).map fun (items, rest) => (.list items, rest)
    | '\x7b' :: cs =>
      match skipSpace cs with
      | '\x7d' :: rest => some (.record [], rest)
      | cs => (fields? fuel cs).map fun (fields, rest) => (.record fields, rest)
    | '"' :: cs => (quoted? cs).map fun (s, rest) => (.text s, rest)
    | 't' :: cs => word? "true" (.bool true) ('t' :: cs)
    | 'f' :: cs => word? "false" (.bool false) ('f' :: cs)
    | 'n' :: cs => word? "null" .null ('n' :: cs)
    | cs => (numeral? cs).map fun (n, rest) => (.number n, rest)

/-- The items of a list that has one, and its closing bracket. -/
def items? : (fuel : Nat) → List Char → Option (List Tree × List Char)
  | 0, _ => none
  | fuel + 1, cs =>
    match value? fuel cs with
    | none => none
    | some (item, cs) =>
      match skipSpace cs with
      | ']' :: rest => some ([item], rest)
      | ',' :: cs => (items? fuel cs).map fun (items, rest) => (item :: items, rest)
      | _ => none

/-- The fields of a record that has one, and its closing bracket. -/
def fields? : (fuel : Nat) → List Char → Option (List (Option String × Tree) × List Char)
  | 0, _ => none
  | fuel + 1, cs =>
    match skipSpace cs with
    | '"' :: cs =>
      match quoted? cs with
      | none => none
      | some (key, cs) =>
        match skipSpace cs with
        | ':' :: cs =>
          match value? fuel cs with
          | none => none
          | some (value, cs) =>
            match skipSpace cs with
            | '\x7d' :: rest => some ([(key, value)], rest)
            | ',' :: cs => (fields? fuel cs).map fun (fields, rest) => ((key, value) :: fields, rest)
            | _ => none
        | _ => none
    | _ => none

end

/-- What the whole text says. Every step of the reader takes a character, so the fuel lasts. -/
def read? (s : String) : Option Tree :=
  let cs := s.toList
  match value? (cs.length + 1) cs with
  | some (tree, rest) => if (skipSpace rest).isEmpty then some tree else none
  | none => none

mutual

/-- How deep lists and records nest. -/
def depth : Tree → Nat
  | .list items => itemsDepth items + 1
  | .record fields => fieldsDepth fields + 1
  | _ => 0

def itemsDepth : List Tree → Nat
  | [] => 0
  | item :: items => max (depth item) (itemsDepth items)

def fieldsDepth : List (Option String × Tree) → Nat
  | [] => 0
  | (_, value) :: fields => max (depth value) (fieldsDepth fields)

end

end Tree

end LunchRush.Json
