import LunchRush.Fixture
import LunchRush.Wire.Aliases
/-!
# Reading restaurants

Restaurants, their menus and the documents of fixtures as they are read from a form. Only the
identifier of a record must be there; what else is missing is empty or zero. Nothing is checked
here beyond the types.
-/

namespace LunchRush

variable {v : Type} [Form v]

namespace Form

/-- A text that may be missing. -/
def textOrEmpty? : Option v → Option String
  | some value => text? value
  | none => some ""

/-- A float that may be missing. -/
def floatOrZero? : Option v → Option Float
  | some value => float? value
  | none => some 0.0

/-- A list that may be missing or nothing, its items read by `f`. -/
def listOrEmpty? {α : Type} (f : v → Option α) : Option v → Option (List α)
  | none => some []
  | some value =>
    match present? value with
    | some (some value) => (items? value).bind fun items => items.mapM f
    | some none => some []
    | none => none

/-- An identifier, which must be there. -/
def identifier? (kind : Named) : Option v → Option (Identifier kind)
  | some value => (text? value).map (⟨·⟩)
  | none => none

end Form

open Form

/-- The names of a menu item's fields. -/
def MenuItem.fieldNames : List String := ["item_id", "name", "description", "price"]

/-- A menu item. -/
def MenuItem.ofForm? (value : v) : Option MenuItem := do
  match ← fields? fieldNames value with
  | [itemId, name, description, price] =>
    some ⟨← identifier? .item itemId, ← textOrEmpty? name, ← textOrEmpty? description,
      ← floatOrZero? price⟩
  | _ => none

/-- The names of a fixture's fields. -/
def Fixture.fieldNames : List String := ["restaurant_id", "menus"]

/-- A fixture. -/
def Fixture.ofForm? (value : v) : Option Fixture := do
  match ← fields? fieldNames value with
  | [restaurantId, menus] =>
    some ⟨← identifier? .restaurant restaurantId, ← listOrEmpty? MenuItem.ofForm? menus⟩
  | _ => none

/-- The names of a listed restaurant's fields. -/
def Restaurant.fieldNames : List String :=
  ["restaurant_id", "name", "email", "latitude", "longitude", "menus"]

/-- A listed restaurant. -/
def Restaurant.ofForm? (value : v) : Option Restaurant := do
  match ← fields? fieldNames value with
  | [restaurantId, name, email, latitude, longitude, menus] =>
    some ⟨← identifier? .restaurant restaurantId, ← textOrEmpty? name, ← textOrEmpty? email,
      ← floatOrZero? latitude, ← floatOrZero? longitude, ← listOrEmpty? MenuItem.ofForm? menus⟩
  | _ => none

/-- The record around a list of restaurants, each read by `f`. -/
def restaurantsOfForm? {α : Type} (f : v → Option α) (value : v) : Option (List α) := do
  match ← fields? ["restaurants"] value with
  | [restaurants] => listOrEmpty? f restaurants
  | _ => none

/-- A document of fixtures. -/
def Document.ofForm? (value : v) : Option Document :=
  (restaurantsOfForm? Fixture.ofForm? value).map (⟨·⟩)

/-- The answer to a request for a list. -/
def listingOfForm? (value : v) : Option (List Restaurant) :=
  restaurantsOfForm? Restaurant.ofForm? value

/-- A record of leaves. -/
def Shape.flat (names : List String) : Shape := .record (names.map (·, .leaf))

/-- A record of leaves and a menu. -/
def Shape.withMenu (names : List String) : Shape :=
  .record (names.map fun name =>
    (name, if name = "menus" then .list (.flat MenuItem.fieldNames) else .leaf))

/-- A list of restaurants with the record around it. -/
def Shape.restaurants (names : List String) : Shape :=
  .record [("restaurants", .list (.withMenu names))]

/-- What `f` reads from YAML text, unless the text has too many aliases for its shape. -/
def Yaml.readAs? {α : Type} (shape : Shape) (f : Yaml.View → Option α) (s : String) : Option α :=
  ((Yaml.view? s).filter (·.isModest shape)).bind f

/-- A document of fixtures from YAML text; a text without content is an empty document. -/
def Document.ofYaml? : String → Option Document :=
  Yaml.readAs? (.restaurants Fixture.fieldNames) Document.ofForm?

/-- A listing from YAML text. -/
def listingOfYaml? : String → Option (List Restaurant) :=
  Yaml.readAs? (.restaurants Restaurant.fieldNames) listingOfForm?

/-- A listed restaurant from YAML text. -/
def Restaurant.ofYaml? : String → Option Restaurant :=
  Yaml.readAs? (.withMenu Restaurant.fieldNames) Restaurant.ofForm?

/-- A fixture from YAML text. -/
def Fixture.ofYaml? : String → Option Fixture :=
  Yaml.readAs? (.withMenu Fixture.fieldNames) Fixture.ofForm?

/-- A menu item from YAML text. -/
def MenuItem.ofYaml? : String → Option MenuItem :=
  Yaml.readAs? (.flat MenuItem.fieldNames) MenuItem.ofForm?

/-- An identifier from YAML text. -/
def Identifier.ofYaml? (kind : Named) (s : String) : Option (Identifier kind) :=
  Yaml.readAs? .leaf (fun v => identifier? kind (some v)) s

/-- A document of fixtures from JSON text. -/
def Document.ofJson? (s : String) : Option Document := (Json.Tree.read? s).bind Document.ofForm?

/-- A fixture from JSON text. -/
def Fixture.ofJson? (s : String) : Option Fixture := (Json.Tree.read? s).bind Fixture.ofForm?

/-- A menu item from JSON text. -/
def MenuItem.ofJson? (s : String) : Option MenuItem := (Json.Tree.read? s).bind MenuItem.ofForm?

/-- An identifier from JSON text. -/
def Identifier.ofJson? (kind : Named) (s : String) : Option (Identifier kind) :=
  (Json.Tree.read? s).bind fun tree => identifier? kind (some tree)

/-- A listed restaurant from JSON text. -/
def Restaurant.ofJson? (s : String) : Option Restaurant := (Json.Tree.read? s).bind Restaurant.ofForm?

/-- A listing from JSON text. -/
def listingOfJson? (s : String) : Option (List Restaurant) := (Json.Tree.read? s).bind listingOfForm?

end LunchRush
