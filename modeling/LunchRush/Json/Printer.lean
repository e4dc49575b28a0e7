import LunchRush.Json.Value
import LunchRush.Number.Layout
import LunchRush.Text.Quoted
/-!
# JSON text

The compact form has no white space at all; the indented form puts every item and field on a line
of its own, two spaces deeper than the bracket around it.
-/

namespace LunchRush.Json

/-- What a character becomes inside a JSON text. -/
def escaped (c : Char) : List Char :=
  if c = '"' then ['\\', '"']
  else if c = '\\' then ['\\', '\\']
  else if c = '\n' then ['\\', 'n']
  else if c = '\r' then ['\\', 'r']
  else if c = '\t' then ['\\', 't']
  else if c = '\x08' then ['\\', 'b']
  else if c = '\x0c' then ['\\', 'f']
  else if c.toNat < 0x10 then ['\\', 'u', '0', '0', '0'] ++ Text.hexDigits c.toNat
  else if c.toNat < 0x20 then ['\\', 'u', '0', '0'] ++ Text.hexDigits c.toNat
  else [c]

/-- A text in its quotes. -/
def textChars (s : String) : List Char := '"' :: s.toList.flatMap escaped ++ ['"']

/-- A whole number. -/
def intChars (n : Int) : List Char :=
  if n < 0 then '-' :: Number.decimalDigits n.natAbs else Number.decimalDigits n.natAbs

/-- A value that is neither a list nor a record. -/
def plainChars : Json → List Char
  | .bool true => "true".toList
  | .bool false => "false".toList
  | .int n => intChars n
  | .float x => (Number.Layout.json.show x).toList
  | .text s => textChars s
  | _ => "null".toList

mutual

/-- The compact form. -/
def compactChars : Json → List Char
  | .list items => '[' :: compactItems items ++ [']']
  | .record fields => '\x7b' :: compactFields fields ++ ['\x7d']
  | value => plainChars value

def compactItems : List Json → List Char
  | [] => []
  | [item] => compactChars item
  | item :: items => compactChars item ++ ',' :: compactItems items

def compactFields : List (String × Json) → List Char
  | [] => []
  | [(key, value)] => textChars key ++ ':' :: compactChars value
  | (key, value) :: fields => textChars key ++ ':' :: compactChars value ++ ',' :: compactFields fields

end

/-- A line break and the indentation of a depth. -/
def newline (depth : Nat) : List Char := '\n' :: List.replicate (2 * depth) ' '

mutual

/-- The indented form at a depth. -/
def prettyChars (depth : Nat) : Json → List Char
  | .list [] => ['[', ']']
  | .list (item :: items) =>
    '[' :: newline (depth + 1) ++ prettyItems (depth + 1) (item :: items) ++ newline depth ++ [']']
  | .record [] => ['\x7b', '\x7d']
  | .record (field :: fields) =>
    '\x7b' :: newline (depth + 1) ++ prettyFields (depth + 1) (field :: fields) ++ newline depth ++
      ['\x7d']
  | value => plainChars value

def prettyItems (depth : Nat) : List Json → List Char
  | [] => []
  | [item] => prettyChars depth item
  | item :: items => prettyChars depth item ++ ',' :: newline depth ++ prettyItems depth items

def prettyFields (depth : Nat) : List (String × Json) → List Char
  | [] => []
  | [(key, value)] => textChars key ++ ':' :: ' ' :: prettyChars depth value
  | (key, value) :: fields =>
    textChars key ++ ':' :: ' ' :: prettyChars depth value ++ ',' :: newline depth ++
      prettyFields depth fields

end

/-- The compact JSON text of a value. -/
def compact (value : Json) : String := String.ofList (compactChars value)

/-- The indented JSON text of a value. -/
def pretty (value : Json) : String := String.ofList (prettyChars 0 value)

end LunchRush.Json
