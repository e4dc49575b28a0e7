import LunchRush.Fixture
import LunchRush.Number.Layout
import LunchRush.Yaml.Printer
/-!
# Documents as YAML text

A document is written as blocks: the restaurants one below the other, and under each its menu. A
dash stands in the column of the key whose list it belongs to.
-/

namespace LunchRush

namespace Yaml

/-- A field on lines of its own. The text of a literal block may bring its last line break along. -/
def fieldChars (start key : String) (value : List Char) : List Char :=
  start.toList ++ key.toList ++ ':' :: ' ' :: value ++
    if value.head? == some '|' && value.getLast?.any isBreak then [] else ['\n']

/-- A list under a key; an empty one stands in brackets. -/
def listChars {α : Type} (start key : String) (item : α → List Char) : List α → List Char
  | [] => start.toList ++ key.toList ++ ": []\n".toList
  | items => start.toList ++ key.toList ++ ":\n".toList ++ items.flatMap item

/-- The text of a float. -/
def floatChars (x : Float) : List Char := (Number.Layout.yaml.show x).toList

end Yaml

open Yaml

/-- A menu item, four columns deep. -/
def MenuItem.yamlChars (item : MenuItem) : List Char :=
  fieldChars "  - " "item_id" (scalarChars 6 item.itemId.text) ++
    fieldChars "    " "name" (scalarChars 6 item.name) ++
    fieldChars "    " "description" (scalarChars 6 item.description) ++
    fieldChars "    " "price" (floatChars item.price)

/-- A fixture, two columns deep. -/
def Fixture.yamlChars (f : Fixture) : List Char :=
  fieldChars "- " "restaurant_id" (scalarChars 4 f.restaurantId.text) ++
    listChars "  " "menus" MenuItem.yamlChars f.menus

/-- The text of a document. -/
def Document.toYaml (d : Document) : String :=
  String.ofList (listChars "" "restaurants" Fixture.yamlChars d.restaurants)

end LunchRush
