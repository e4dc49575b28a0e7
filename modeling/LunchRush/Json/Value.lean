/-!
# JSON values

Whole numbers are kept apart from floats, as their texts differ. A record is a list of fields; the
gateway's payloads are kept in key order, which `Json.sorted` establishes.
-/

namespace LunchRush

/-- A JSON value. -/
inductive Json where
  | null
  | bool (b : Bool)
  | int (n : Int)
  | float (x : Float)
  | text (s : String)
  | list (items : List Json)
  | record (fields : List (String × Json))
deriving Inhabited

namespace Json

/-- A natural number as a value. -/
def ofNat (n : Nat) : Json := .int n

/-- A value that may be absent. -/
def ofOption {α : Type} (f : α → Json) : Option α → Json
  | some a => f a
  | none => .null

/-- The text that a value is. -/
def text? : Json → Option String
  | .text s => some s
  | _ => none

/-- The items of a list. -/
def list? : Json → Option (List Json)
  | .list items => some items
  | _ => none

/-- The value under a key of a record. -/
def field? (key : String) : Json → Option Json
  | .record fields => fields.lookup key
  | _ => none

/-- Puts a field among fields in key order; a later field replaces an earlier one of its key. -/
def putField (key : String) (value : Json) : List (String × Json) → List (String × Json)
  | [] => [(key, value)]
  | (k, v) :: rest =>
    if key < k then (key, value) :: (k, v) :: rest
    else if key = k then (key, value) :: rest
    else (k, v) :: putField key value rest

/-- Fields in key order, one for each key. -/
def sortFields (fields : List (String × Json)) : List (String × Json) :=
  fields.foldl (fun acc (key, value) => putField key value acc) []

mutual

/-- The value with the fields of every record in key order. -/
def sorted : Json → Json
  | .list items => .list (sortedItems items)
  | .record fields => .record (sortFields (sortedValues fields))
  | value => value

def sortedItems : List Json → List Json
  | [] => []
  | item :: items => sorted item :: sortedItems items

def sortedValues : List (String × Json) → List (String × Json)
  | [] => []
  | (key, value) :: fields => (key, sorted value) :: sortedValues fields

end

end Json

end LunchRush
