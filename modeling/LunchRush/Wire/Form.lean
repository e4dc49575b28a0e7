import LunchRush.Json.Reader
import LunchRush.Yaml.Node
import LunchRush.Yaml.Schema
/-!
# Forms

What restaurants and menus are read from: a tree that was JSON text, or one that was YAML. A form
says when its tree is a text, a number, a list or a record; the two differ in what they let pass.
-/

namespace LunchRush

/-- A kind of tree from which records can be read. -/
class Form (v : Type) where
  /-- The text that the tree is. -/
  text? : v → Option String
  /-- The float that the tree is. -/
  float? : v → Option Float
  /-- The tree itself, or nothing where it says that there is nothing; none if it is broken. -/
  present? : v → Option (Option v)
  /-- The items of a list. -/
  items? : v → Option (List v)
  /-- The values of the named fields of a record, in the order of the names; other fields are
  ignored, but a field may not be given twice. -/
  fields? : List String → v → Option (List (Option v))

namespace Form

/-- The values of the named fields among all entries of a record. -/
def pick? {v : Type} (entries : List (String × v)) : List String → Option (List (Option v))
  | [] => some []
  | name :: names =>
    match entries.filter (·.1 == name) with
    | [] => (pick? entries names).map (none :: ·)
    | [(_, value)] => (pick? entries names).map (some value :: ·)
    | _ => none

end Form

namespace Json.Tree

/-- The entries of a record. Half of a surrogate pair is no key. -/
def entries? (fields : List (Option String × Tree)) : Option (List (String × Tree)) :=
  fields.mapM fun (key, value) => key.map (·, value)

/-- A JSON record may also be written as the list of its fields' values, and the last of them may
be left out. -/
instance : Form Tree where
  text? tree := match tree with
    | .text s => s
    | _ => none
  float? tree := match tree with
    | .number n => n.float?
    | _ => none
  present? tree := match tree with
    | .null => some none
    | tree => some (some tree)
  items? tree := match tree with
    | .list items => some items
    | _ => none
  fields? names tree := match tree with
    | .record fields => (entries? fields).bind (Form.pick? · names)
    | .list items =>
      if items.length ≤ names.length then
        some (items.map some ++ List.replicate (names.length - items.length) none)
      else none
    | _ => none

end Json.Tree

namespace Yaml

/-- A node with the anchors of its document, or nothing where the document is empty. -/
structure View where
  anchors : List (Nat × Node)
  node : Option Node

namespace View

/-- The node, or the one that it is an alias of: the last one that got the anchor. -/
def resolved (v : View) : Option Node :=
  match v.node with
  | some (.alias anchor) => v.anchors.reverse.lookup anchor
  | node => node

/-- The view of another node of the same document. -/
def child (v : View) (node : Node) : View := ⟨v.anchors, some node⟩

def text? (v : View) : Option String :=
  match v.resolved with
  | some (.scalar _ _ _ text) => some text
  | _ => none

/-- Whether nothing is written. -/
def isAbsent : Option Node → Bool
  | none => true
  | some (.scalar _ _ style text) => style == .plain && text.isEmpty
  | some _ => false

/-- The tags of null and of floats. -/
def nullTag : String := "tag:yaml.org,2002:null"
def floatTag : String := "tag:yaml.org,2002:float"

/-- A float is plain; a literal block can be one if its tag says so. -/
def float? (v : View) : Option Float :=
  match v.resolved with
  | some (.scalar _ tag style text) =>
    if style == .plain || (style == .literal && tag == some floatTag) then floatOfPlain? text else none
  | _ => none

/-- A plain scalar is nothing when it is empty or a word for null; under the tag of null it must be
such a word. -/
def present? (v : View) : Option (Option View) :=
  match v.resolved with
  | none => some none
  | some (.scalar _ tag style text) =>
    if style != .plain then some (some v)
    else
      match tag with
      | none => some (if text.isEmpty || isNullWord text then none else some v)
      | some tag =>
        if tag == nullTag then if isNullWord text then some none else none else some (some v)
  | some _ => some (some v)

def items? (v : View) : Option (List View) :=
  match v.resolved with
  | some (.list _ items) => some (items.map v.child)
  | node => if isAbsent node then some [] else none

def fields? (names : List String) (v : View) : Option (List (Option View)) :=
  match v.resolved with
  | some (.map _ entries) => do
    let entries ← entries.mapM fun (key, value) => (v.child key).text?.map (·, v.child value)
    Form.pick? entries names
  | node => if isAbsent node then some (names.map fun _ => none) else none

instance : Form View := ⟨text?, float?, present?, items?, fields?⟩

end View

/-- The view of a whole text. -/
def view? (s : String) : Option View :=
  (read? s).map fun node => ⟨(node.map Node.anchored).getD [], node⟩

end Yaml

end LunchRush
