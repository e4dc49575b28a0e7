import LunchRush.Fixture
import LunchRush.Json.Value
import LunchRush.Number.Layout
/-!
# Inspecting documents

How many restaurants and menu items a document holds, and between which bounds the sizes of the
menus and the prices lie. Prices that are not numbers do not count as bounds.
-/

namespace LunchRush

/-- The figures of a document. -/
structure Inspection where
  restaurants : Nat
  menuItems : Nat
  minMenuItems : Nat
  maxMenuItems : Nat
  minPrice : Option Float
  maxPrice : Option Float
deriving Repr

namespace Inspection

/-- The lesser of two floats, the first unless the second is less; any number is less than what is
not a number. -/
def lesser (a b : Float) : Float := if a.isNaN then b else if b < a then b else a

/-- The greater of two floats, in the same way. -/
def greater (a b : Float) : Float := if a.isNaN then b else if a < b then b else a

/-- Combines the items of a list that has one. -/
def combine {α : Type} (f : α → α → α) : List α → Option α
  | [] => none
  | a :: rest => some (rest.foldl f a)

/-- The figures of a document. -/
def ofDocument (d : Document) : Inspection :=
  let sizes := d.restaurants.map (·.menus.length)
  let prices := d.restaurants.flatMap fun f => f.menus.map (·.price)
  { restaurants := d.restaurants.length
    menuItems := d.itemCount
    minMenuItems := (combine min sizes).getD 0
    maxMenuItems := (combine max sizes).getD 0
    minPrice := combine lesser prices
    maxPrice := combine greater prices }

/-- The figures as JSON. -/
def toJson (i : Inspection) : Json :=
  .record [("restaurants", .ofNat i.restaurants), ("menu_items", .ofNat i.menuItems),
    ("min_menu_items", .ofNat i.minMenuItems), ("max_menu_items", .ofNat i.maxMenuItems),
    ("min_price", .ofOption .float i.minPrice), ("max_price", .ofOption .float i.maxPrice)]

/-- The figures as lines of text. -/
def text (path : String) (i : Inspection) : String :=
  let counts := s!"fixtures: {path}\nrestaurants: {i.restaurants}\nmenu items: {i.menuItems} " ++
    s!"({i.minMenuItems}..={i.maxMenuItems} per restaurant)"
  match i.minPrice, i.maxPrice with
  | some low, some high =>
    counts ++ s!"\nprice range: {Number.fixed 2 low}..={Number.fixed 2 high}"
  | _, _ => counts

end Inspection

end LunchRush
