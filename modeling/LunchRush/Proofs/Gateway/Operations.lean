import LunchRush.Gateway.Memory
import LunchRush.Proofs.Gateway.Recorded
/-!
# What is asked of a gateway

The calls of a client as values, so that a statement can range over every sequence of them; and
beside them whatever else can be done with a gateway in memory. Such a gateway keeps the restaurants
it has, and an operation adds one under the next number or none (`perform_steps`).
-/

namespace LunchRush

/-- A call that is to be made. -/
inductive Inquiry where
  | health
  | register (registration : Registration)
  | list (area : Area)
  | post (endpoint : String) (payload : Json)
  | place (order : Order)

namespace Gateway

variable {γ : Type} [Gateway γ]

/-- Makes a call, which then has its answer. -/
def ask (g : γ) : Inquiry → Call × γ
  | .health =>
    let (answer, g) := isHealthy g
    (.health answer, g)
  | .register registration =>
    let (answer, g) := register registration g
    (.register registration answer, g)
  | .list area =>
    let (answer, g) := list area g
    (.list area answer, g)
  | .post endpoint payload =>
    let (answer, g) := post endpoint payload g
    (.post endpoint payload answer, g)
  | .place order =>
    let (answer, g) := place order g
    (.place order answer, g)

/-- Makes some calls, one after the other. -/
def askAll (g : γ) : List Inquiry → List Call × γ
  | [] => ([], g)
  | inquiry :: later =>
    let (call, g) := ask g inquiry
    let (calls, g) := askAll g later
    (call :: calls, g)

end Gateway

namespace MemoryGateway

/-- What can be done with a gateway in memory. -/
inductive Operation where
  | ask (inquiry : Inquiry)
  | seed (items : Nat)
  | setHealthy (healthy : Bool)
  | failListing (fails : Bool)
  | failAttempts (attempts : List Nat)
  | stripMenus (strips : Bool)
  | forceStatus (status : Option Nat)

def perform (g : MemoryGateway) : Operation → MemoryGateway
  | .ask inquiry => (Gateway.ask g inquiry).2
  | .seed items => (g.seed items).2
  | .setHealthy healthy => { g with healthy }
  | .failListing fails => { g with listingFails := fails }
  | .failAttempts attempts => { g with failingAttempts := g.failingAttempts ++ attempts }
  | .stripMenus strips => { g with stripsMenus := strips }
  | .forceStatus status => { g with forcedStatus := status }

def performAll (g : MemoryGateway) (operations : List Operation) : MemoryGateway :=
  operations.foldl perform g

/-- The identifier of the restaurant with a number. -/
def idOf (number : Nat) : RestaurantId := ⟨s!"restaurant-{number}"⟩

/-- The restaurant that a registration brings. -/
def registered (g : MemoryGateway) (r : Registration) : Restaurant :=
  ⟨idOf g.nextId, r.name, r.email, r.latitude, r.longitude,
    if g.stripsMenus then [] else newItems (idOf g.nextId).text r.menus⟩

/-- An attempt that is not to fail adds the restaurant under the next number. -/
theorem register_eq (g : MemoryGateway) (r : Registration) :
    register r g =
      if g.failingAttempts.contains g.registrationAttempts then
        (.error (.status 500 (refusal "Failed to create restaurant")),
          { g with registrationAttempts := g.registrationAttempts + 1 })
      else (.ok (g.registered r),
        { g with
          restaurants := g.restaurants ++ [g.registered r]
          registrationAttempts := g.registrationAttempts + 1
          nextId := g.nextId + 1 }) := by
  have hr : (if g.stripsMenus = true then
        { restaurantId := idOf g.nextId, name := r.name, email := r.email, latitude := r.latitude,
          longitude := r.longitude, menus := [] }
      else ⟨idOf g.nextId, r.name, r.email, r.latitude, r.longitude,
        newItems (idOf g.nextId).text r.menus⟩) = g.registered r := by
    unfold registered
    split <;> rfl
  rw [← hr]
  rfl

/-- What an operation does to the restaurants and their numbers. -/
inductive Steps (g g' : MemoryGateway) : Prop
  | keeps : g'.restaurants = g.restaurants → g'.nextId = g.nextId → Steps g g'
  | adds (restaurant : Restaurant) : restaurant.restaurantId = idOf g.nextId →
      (∃ menu, restaurant.menus = newItems (idOf g.nextId).text menu) →
      g'.restaurants = g.restaurants ++ [restaurant] → g'.nextId = g.nextId + 1 → Steps g g'

theorem seed_steps (g : MemoryGateway) (items : Nat) : Steps g (g.seed items).2 :=
  .adds (g.seed items).1 rfl ⟨_, rfl⟩ rfl rfl

theorem register_steps (g : MemoryGateway) (r : Registration) : Steps g (register r g).2 := by
  rw [register_eq]
  split
  · exact .keeps rfl rfl
  · refine .adds (g.registered r) rfl ?_ rfl rfl
    cases hs : g.stripsMenus with
    | true => exact ⟨[], by simp [registered, hs, newItems]⟩
    | false => exact ⟨r.menus, by simp [registered, hs]⟩

theorem ask_steps (g : MemoryGateway) (inquiry : Inquiry) : Steps g (Gateway.ask g inquiry).2 := by
  cases inquiry with
  | health => exact .keeps rfl rfl
  | register registration => exact register_steps g registration
  | list area =>
    refine .keeps ?_ ?_ <;> simp only [Gateway.ask, Gateway.list, list] <;> split <;> rfl
  | post endpoint payload =>
    refine .keeps ?_ ?_ <;> simp only [Gateway.ask, Gateway.post, post] <;> split <;>
      (try split) <;> rfl
  | place order => exact .keeps rfl rfl

theorem perform_steps (g : MemoryGateway) (operation : Operation) : Steps g (g.perform operation) := by
  cases operation with
  | ask inquiry => exact ask_steps g inquiry
  | seed items => exact seed_steps g items
  | setHealthy | failListing | failAttempts | stripMenus | forceStatus => exact .keeps rfl rfl

end MemoryGateway

end LunchRush
