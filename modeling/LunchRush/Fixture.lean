import LunchRush.Menu
/-!
# Fixtures

A fixture is a restaurant against which orders can be placed: its identifier and its menu. The
document of fixtures is what seeding leaves behind and what a load run starts from. A fixture is
usable when `Fixture.check` finds nothing wrong, and every reader of a document keeps just those.
-/

namespace LunchRush

/-- A restaurant as the gateway lists it. -/
structure Restaurant where
  restaurantId : RestaurantId
  name : String
  email : String
  latitude : Float
  longitude : Float
  menus : List MenuItem
deriving DecidableEq, Repr

/-- A restaurant against which orders can be placed. -/
structure Fixture where
  restaurantId : RestaurantId
  menus : List MenuItem
deriving DecidableEq, Repr

/-- Whether there is a menu at all. -/
def Fixture.hasMenu (f : Fixture) : Bool := !f.menus.isEmpty

/-- The items of a menu in order: each must keep its own rules, and then be new to the menu. -/
def Fixture.checkItems (restaurant : String) : (seen : List ItemId) → List MenuItem →
    Except Violation Unit
  | _, [] => .ok ()
  | seen, item :: items => do
    item.check
    if seen.contains item.itemId then .error (.repeatedMenuItem restaurant item.itemId.text)
    else checkItems restaurant (item.itemId :: seen) items

/-- The rules of a fixture: the identifier, then a menu at all, then its items in order. -/
def Fixture.check (f : Fixture) : Except Violation Unit :=
  if f.restaurantId.isBlank then .error (.blank .restaurantId)
  else if !f.hasMenu then .error (.emptyMenu f.restaurantId.text)
  else checkItems f.restaurantId.text [] f.menus

/-- Whether orders can be placed. -/
def Fixture.isUsable (f : Fixture) : Bool :=
  match f.check with
  | .ok _ => true
  | .error _ => false

/-- A fixture that keeps the rules. -/
def Fixture.new (restaurantId : RestaurantId) (menus : List MenuItem) : Except Violation Fixture := do
  let f : Fixture := ⟨restaurantId, menus⟩
  f.check
  return f

/-- The fixture of a listed restaurant. -/
def Fixture.ofRestaurant (r : Restaurant) : Except Violation Fixture :=
  Fixture.new r.restaurantId r.menus

/-- The fixtures that seeding wrote, in order. -/
structure Document where
  restaurants : List Fixture
deriving DecidableEq, Repr

namespace Document

def empty : Document := ⟨[]⟩

/-- The fixtures against which orders can be placed. -/
def usable (d : Document) : List Fixture := d.restaurants.filter Fixture.isUsable

/-- The document without the fixtures that cannot be used, and how many those were. -/
def retainUsable (d : Document) : Document × Nat :=
  (⟨d.usable⟩, d.restaurants.length - d.usable.length)

/-- How many menu items there are in all. -/
def itemCount (d : Document) : Nat := (d.restaurants.map fun f => f.menus.length).foldr (· + ·) 0

end Document

theorem Fixture.new_eq_ok_iff {id : RestaurantId} {menus : List MenuItem} {f : Fixture} :
    Fixture.new id menus = .ok f ↔ f = ⟨id, menus⟩ ∧ f.isUsable = true := by
  simp only [Fixture.new, Fixture.isUsable, bind, Except.bind, pure, Except.pure]
  constructor
  · intro h
    split at h
    · cases h
    · rename_i hc
      cases h
      simp [hc]
  · rintro ⟨rfl, h⟩
    split
    · rename_i hc
      simp [hc] at h
    · rfl

end LunchRush
