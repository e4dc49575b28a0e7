import LunchRush.Wire.Form
/-!
# Aliases that a reader follows

With aliases a short YAML text can stand for a very large tree. A reader follows an alias wherever
its record has a field for it, so how often it does that depends on the shape that it looks for. A
text is refused when more aliases are followed than a hundred times its own size.
-/

namespace LunchRush

/-- What a reader looks for: how far it goes into a tree. -/
inductive Shape where
  | leaf
  | list (item : Shape)
  | record (fields : List (String × Shape))

namespace Yaml

namespace Node

mutual

/-- The size of a node: a list and a map count at both ends, all else counts once. -/
def size : Node → Nat
  | .alias _ => 1
  | .scalar .. => 1
  | .list _ items => 2 + sizeItems items
  | .map _ entries => 2 + sizeEntries entries

def sizeItems : List Node → Nat
  | [] => 0
  | item :: items => size item + sizeItems items

def sizeEntries : List (Node × Node) → Nat
  | [] => 0
  | (key, value) :: entries => size key + size value + sizeEntries entries

end

end Node

namespace View

/-- One if the node itself is an alias. -/
def ownAlias (v : View) : Nat :=
  match v.node with
  | some (.alias _) => 1
  | _ => 0

/-- The items of a list, or nothing. -/
def itemsOf (v : View) : List View :=
  match v.resolved with
  | some (.list _ items) => items.map v.child
  | _ => []

/-- The keys and values of a map, or nothing. -/
def entriesOf (v : View) : List (View × View) :=
  match v.resolved with
  | some (.map _ entries) => entries.map fun (key, value) => (v.child key, v.child value)
  | _ => []

/-- The values under a key. -/
def under (v : View) (name : String) : List View :=
  v.entriesOf.filterMap fun (key, value) => if key.text? == some name then some value else none

mutual

/-- How many aliases are followed by a reader that looks for a shape. -/
def aliases : Shape → View → Nat
  | .leaf, v => v.ownAlias
  | .list item, v => v.ownAlias + (v.itemsOf.map fun i => aliases item i).foldr (· + ·) 0
  | .record fields, v =>
    v.ownAlias + (v.entriesOf.map fun (key, _) => key.ownAlias).foldr (· + ·) 0 + aliasesUnder fields v

def aliasesUnder : List (String × Shape) → View → Nat
  | [], _ => 0
  | (name, shape) :: fields, v =>
    ((v.under name).map fun value => aliases shape value).foldr (· + ·) 0 + aliasesUnder fields v

end

/-- The size of the node as it is written. -/
def size (v : View) : Nat := (v.node.map Node.size).getD 0

/-- Whether a reader may follow as many aliases as it meets. -/
def isModest (shape : Shape) (v : View) : Bool := v.aliases shape ≤ 100 * v.size

end View

end Yaml

end LunchRush
