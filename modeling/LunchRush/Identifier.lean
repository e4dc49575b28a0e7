import LunchRush.Text.Blank
import LunchRush.Violation
/-!
# Identifiers

Restaurants, menu items and customers are named by texts that the gateway hands out. An identifier
that is made here is not blank; one that is read from a document or a response may be.
-/

namespace LunchRush

/-- What an identifier names. -/
inductive Named where
  | restaurant
  | item
  | customer
deriving DecidableEq, Repr

/-- The field that holds such an identifier. -/
def Named.field : Named → TextField
  | .restaurant => .restaurantId
  | .item => .itemId
  | .customer => .customerId

/-- An identifier of one kind of thing. -/
structure Identifier (kind : Named) where
  text : String
deriving DecidableEq, Repr

abbrev RestaurantId := Identifier .restaurant
abbrev ItemId := Identifier .item
abbrev CustomerId := Identifier .customer

namespace Identifier

variable {kind : Named}

instance : Inhabited (Identifier kind) := ⟨⟨""⟩⟩

def isBlank (id : Identifier kind) : Bool := Text.isBlank id.text

/-- An identifier that is not blank. -/
def new (kind : Named) (text : String) : Except Violation (Identifier kind) :=
  if Text.isBlank text then .error (.blank kind.field) else .ok ⟨text⟩

theorem new_eq_ok_iff {text : String} {id : Identifier kind} :
    new kind text = .ok id ↔ id = ⟨text⟩ ∧ id.isBlank = false := by
  unfold new isBlank
  split
  · rename_i h
    constructor
    · intro hne; cases hne
    · rintro ⟨rfl, hb⟩; simp [h] at hb
  · rename_i h
    constructor
    · intro heq; cases heq; simpa using h
    · rintro ⟨rfl, _⟩; rfl

end Identifier

end LunchRush
