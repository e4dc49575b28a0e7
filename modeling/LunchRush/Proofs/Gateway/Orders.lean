import LunchRush.Proofs.Gateway.Identifiers
import LunchRush.Proofs.Json.Sorted
import LunchRush.Proofs.Load.Orders
import LunchRush.Proofs.Registration
/-!
# Orders at a gateway in memory

A gateway that was started empty finds every restaurant and every item under the identifier that it
gave it. So what it accepts as a registration becomes a usable fixture, and every order that is drawn
from such a fixture, or from a restaurant that is listed, is served at the listed prices
(`fixtures_served`).
-/

namespace LunchRush

/-! ## What an order comes to -/

/-- The price under an identifier. -/
def Fixture.priceOf (f : Fixture) (id : ItemId) : Float :=
  ((f.menus.find? (·.itemId == id)).map MenuItem.price).getD 0.0

/-- What an order comes to, added up from its first line on. -/
def Fixture.total (f : Fixture) (o : Order) : Float :=
  o.lines.foldl (fun sum line => sum + f.priceOf line.itemId * Float.ofNat line.quantity) 0.0

/-- Where keys are distinct, an entry is found under its own. -/
theorem find?_of_nodup {α β : Type} [BEq β] [LawfulBEq β] (key : α → β) {xs : List α} {x : α}
    (hn : (xs.map key).Nodup) (hx : x ∈ xs) : xs.find? (key · == key x) = some x := by
  induction xs with
  | nil => cases hx
  | cons y ys ih =>
    rw [List.map_cons, List.nodup_cons] at hn
    rcases List.mem_cons.1 hx with rfl | hx
    · simp
    · have hne : (key y == key x) = false := beq_eq_false_iff_ne.2 fun he =>
        hn.1 (he ▸ List.mem_map_of_mem hx)
      rw [List.find?_cons, hne]
      exact ih hn.2 hx

/-- Identifiers that are distinct have distinct texts. -/
theorem find?_text {α : Type} {kind : Named} {key : α → Identifier kind} {xs : List α} {x : α}
    (hn : (xs.map key).Nodup) (hx : x ∈ xs) :
    xs.find? (fun y => (key y).text == (key x).text) = some x := by
  have hinj : Function.Injective (Identifier.text : Identifier kind → String) := by
    rintro ⟨s⟩ ⟨t⟩ h
    exact congrArg Identifier.mk h
  apply find?_of_nodup (fun x => (key x).text) _ hx
  have ht := List.Nodup.map hinj hn
  rwa [List.map_map] at ht

theorem Fixture.priceOf_eq {f : Fixture} (h : f.isUsable = true) {item : MenuItem}
    (hi : item ∈ f.menus) : f.priceOf item.itemId = item.price := by
  rw [priceOf, find?_of_nodup MenuItem.itemId (items_of_usable h) hi]
  rfl

/-! ## The JSON values of orders -/

theorem Order.restaurant_sorted (o : Order) :
    (o.toJson.sorted.field? "restaurant_id").bind Json.text? = some o.restaurantId.text := by
  rw [toJson, Json.field?_sorted]
  rfl

theorem Order.items_sorted (o : Order) : (o.toJson.sorted.field? "items").bind Json.list? =
    some (o.lines.map fun line => line.toJson.sorted) := by
  rw [toJson, Json.field?_sorted]
  exact congrArg some (by simp [Json.sortedItems_eq])

theorem OrderLine.item_sorted (line : OrderLine) :
    (line.toJson.sorted.field? "item_id").bind Json.text? = some line.itemId.text := by
  rw [toJson, Json.field?_sorted]
  rfl

theorem OrderLine.quantity_sorted (line : OrderLine) :
    line.toJson.sorted.field? "quantity" = some (.ofNat line.quantity) := by
  rw [toJson, Json.field?_sorted]
  rfl

/-- A small quantity is a float that is at least one. -/
theorem float?_quantity {n : Nat} (h : 1 ≤ n ∧ n ≤ 5) :
    Json.float? (.ofNat n) = some (Float.ofNat n) ∧ (1.0 : Float) ≤ Float.ofNat n := by
  obtain ⟨h1, h5⟩ := h
  interval_cases n <;> decide

/-! ## Orders that are served -/

/-- The text that a served order is answered with, after `number` orders before it. -/
def receipt (number : Nat) (total : Float) : String :=
  Json.compact (.record [("order_id", .text s!"order-{number}"), ("status", .text "PENDING"),
    ("total_amount", .float total)])

namespace MemoryGateway

/-- A line of an order that fits a menu names an item of it. -/
theorem lineOf?_eq {restaurant : Restaurant} {line : OrderLine} {item : MenuItem}
    (hn : (restaurant.menus.map MenuItem.itemId).Nodup) (hi : item ∈ restaurant.menus)
    (hid : item.itemId = line.itemId) (hq : 1 ≤ line.quantity ∧ line.quantity ≤ 5) :
    lineOf? restaurant line.toJson.sorted = some (item, Float.ofNat line.quantity) := by
  have hfind : restaurant.menus.find? (·.itemId.text == line.itemId.text) = some item := by
    rw [← hid]
    exact find?_text hn hi
  obtain ⟨hfloat, hle⟩ := float?_quantity hq
  have htext := line.item_sorted
  rw [Option.bind_eq_some_iff] at htext
  obtain ⟨value, hvalue, htext⟩ := htext
  simp only [lineOf?, hvalue, htext, hfind, OrderLine.quantity_sorted, hfloat,
    bind, Option.bind, Option.getD_some]
  exact if_pos hle

theorem total?_eq {restaurant : Restaurant} {f : Fixture} (hu : f.isUsable = true)
    (hf : f.menus = restaurant.menus) (lines : List OrderLine)
    (hl : ∀ line ∈ lines, (∃ item ∈ f.menus, item.itemId = line.itemId) ∧
      1 ≤ line.quantity ∧ line.quantity ≤ 5) :
    ∀ sum, total? restaurant sum (lines.map fun line => line.toJson.sorted) = some (lines.foldl
      (fun sum line => sum + f.priceOf line.itemId * Float.ofNat line.quantity) sum) := by
  induction lines with
  | nil => intro sum; rfl
  | cons line lines ih =>
    intro sum
    obtain ⟨⟨item, hi, hid⟩, hq⟩ := hl line List.mem_cons_self
    have hline := lineOf?_eq (hf ▸ Fixture.items_of_usable hu) (hf ▸ hi) hid hq
    rw [List.map_cons, total?, hline, List.foldl_cons, ← hid, Fixture.priceOf_eq hu hi]
    exact ih (fun other ho => hl other (List.mem_cons_of_mem _ ho)) _

/-- An order that fits the menu of the one restaurant with its identifier is served. -/
theorem reply_of_fits {g : MemoryGateway} (hs : g.forcedStatus = none) (hn : g.ids.Nodup)
    {restaurant : Restaurant} (hr : restaurant ∈ g.restaurants) {f : Fixture}
    (hf : Fixture.ofRestaurant restaurant = .ok f) {customer : CustomerId} {o : Order}
    (ho : o.Fits customer f) :
    g.reply o.toJson.sorted = ⟨201, receipt g.orders.length (f.total o)⟩ := by
  obtain ⟨rfl, hu⟩ := Fixture.new_eq_ok_iff.1 hf
  have hfind : g.restaurants.find? (·.restaurantId.text == o.restaurantId.text) = some restaurant := by
    rw [ho.restaurant]
    exact find?_text hn hr
  have ht := total?_eq hu rfl o.lines
    (fun line hline => ⟨ho.on_menu line hline, ho.quantity line hline⟩) 0.0
  have hl : (o.lines.map fun line => line.toJson.sorted).length = o.lines.length := List.length_map ..
  unfold reply
  simp only [hs, o.restaurant_sorted, Option.bind_some, hfind, o.items_sorted]
  generalize (o.lines.map fun line => line.toJson.sorted) = values at ht hl ⊢
  cases values with
  | nil => exact absurd ho.some_line (by rw [← hl]; decide)
  | cons value values =>
    simp only [ht]
    rfl

/-! ## Gateways that were started empty -/

/-- Whether an operation leaves it to the gateway what it answers to registrations and orders. -/
def Operation.IsOrdinary : Operation → Prop
  | .stripMenus _ => False
  | .forceStatus _ => False
  | _ => True

/-- A gateway in which everything is found under the identifier that it was given. -/
structure Sound (g : MemoryGateway) : Prop where
  unforced : g.forcedStatus = none
  unstripped : g.stripsMenus = false
  numbered : ∃ count, Numbered [] count g
  items : ∀ restaurant ∈ g.restaurants, ∀ item ∈ restaurant.menus,
    ∃ number i, number < g.nextId ∧ item.itemId = itemIdOf number i

theorem Sound.ids {g : MemoryGateway} (h : g.Sound) : g.ids.Nodup := by
  obtain ⟨count, hc⟩ := h.numbered
  exact (hc.nodup_iff List.nodup_nil).2 fun _ _ _ => List.not_mem_nil

theorem sound_empty : Sound {} := ⟨rfl, rfl, ⟨0, ofRestaurants_numbered []⟩, by simp⟩

/-- What an operation does not touch. -/
theorem perform_settings (g : MemoryGateway) {operation : Operation} (h : operation.IsOrdinary) :
    (g.perform operation).forcedStatus = g.forcedStatus ∧
      (g.perform operation).stripsMenus = g.stripsMenus := by
  cases operation with
  | ask inquiry =>
    cases inquiry with
    | register r =>
      show (register r g).2.forcedStatus = _ ∧ (register r g).2.stripsMenus = _
      rw [register_eq]
      split <;> exact ⟨rfl, rfl⟩
    | list area =>
      simp only [perform, Gateway.ask, Gateway.list, list]
      split <;> exact ⟨rfl, rfl⟩
    | post endpoint payload =>
      simp only [perform, Gateway.ask, Gateway.post, post]
      split
      · exact ⟨rfl, rfl⟩
      · split <;> exact ⟨rfl, rfl⟩
    | health | place => exact ⟨rfl, rfl⟩
  | seed | setHealthy | failListing | failAttempts => exact ⟨rfl, rfl⟩
  | stripMenus | forceStatus => exact h.elim

theorem Steps.items {g g' : MemoryGateway} (hs : Steps g g')
    (h : ∀ restaurant ∈ g.restaurants, ∀ item ∈ restaurant.menus,
      ∃ number i, number < g.nextId ∧ item.itemId = itemIdOf number i) :
    ∀ restaurant ∈ g'.restaurants, ∀ item ∈ restaurant.menus,
      ∃ number i, number < g'.nextId ∧ item.itemId = itemIdOf number i := by
  cases hs with
  | keeps hr hn => rwa [hr, hn]
  | adds added _ hmenu hr hn =>
    intro restaurant hm item hi
    rw [hr] at hm
    rw [hn]
    rcases List.mem_append.1 hm with hm | hm
    · obtain ⟨number, i, hlt, hid⟩ := h restaurant hm item hi
      exact ⟨number, i, Nat.lt_succ_of_lt hlt, hid⟩
    · obtain ⟨menu, hmenu⟩ := hmenu
      rw [List.mem_singleton.1 hm, hmenu] at hi
      obtain ⟨i, hid⟩ := exists_itemIdOf hi
      exact ⟨g.nextId, i, Nat.lt_succ_self _, hid⟩

theorem Sound.perform {g : MemoryGateway} (h : g.Sound) {operation : Operation}
    (ho : operation.IsOrdinary) : (g.perform operation).Sound := by
  obtain ⟨hf, hs⟩ := perform_settings g ho
  obtain ⟨count, hc⟩ := h.numbered
  exact ⟨hf.trans h.unforced, hs.trans h.unstripped, (perform_steps g operation).numbered hc,
    (perform_steps g operation).items h.items⟩

theorem Steps.subset {g g' : MemoryGateway} (hs : Steps g g') : g.restaurants ⊆ g'.restaurants := by
  cases hs with
  | keeps hr _ => rw [hr]; exact List.Subset.refl _
  | adds _ _ _ hr _ => rw [hr]; exact List.subset_append_left _ _

theorem Sound.performAll (operations : List Operation) :
    ∀ {g : MemoryGateway}, g.Sound → (∀ operation ∈ operations, operation.IsOrdinary) →
      (g.performAll operations).Sound ∧ g.restaurants ⊆ (g.performAll operations).restaurants := by
  induction operations with
  | nil =>
    intro g h _
    exact ⟨h, List.Subset.refl _⟩
  | cons operation operations ih =>
    intro g h ho
    obtain ⟨hs, hm⟩ := ih (h.perform (ho operation List.mem_cons_self)) fun later hl =>
      ho later (List.mem_cons_of_mem _ hl)
    exact ⟨hs, List.Subset.trans (perform_steps g operation).subset hm⟩

/-! ## From a registration to its orders -/

/-- Whoever orders from a fixture, and whatever words the order is drawn with: no order is refused, and
the order that is drawn is served and comes to what its lines cost on the menu. -/
def Serves (g : MemoryGateway) (f : Fixture) : Prop :=
  ∀ (customer : CustomerId) (σ : Type) [Random.Source σ],
    Random.Yields (Generate.orderAt customer f : Random.Draw σ (Except OrderRefused Order)) fun drawn =>
      ∃ o, drawn = .ok o ∧ o.Fits customer f ∧
        (Gateway.place o g).1 = .ok ⟨201, receipt g.orders.length (f.total o)⟩

theorem Sound.serves {g : MemoryGateway} (h : g.Sound) {restaurant : Restaurant}
    (hr : restaurant ∈ g.restaurants) {f : Fixture} (hf : Fixture.ofRestaurant restaurant = .ok f) :
    g.Serves f := by
  intro customer σ _
  have hu := (Fixture.new_eq_ok_iff.1 hf).2
  refine (Generate.orderAt_yields customer hu).imp ?_
  rintro _ ⟨o, rfl, ho⟩
  exact ⟨o, rfl, ho, congrArg Except.ok (reply_of_fits h.unforced h.ids hr hf ho)⟩

theorem newItems_entries (restaurant : String) (menu : List MenuTemplate) :
    (newItems restaurant menu).map (fun item => (item.name, item.description, item.price)) =
      menu.map fun t => (t.name, t.description, t.price) := by
  rw [newItems, List.map_map]
  nth_rewrite 2 [← List.zipIdx_map_fst 0 menu]
  rw [List.map_map]
  rfl

/-- A registration that a gateway took, the restaurant it was answered with and the fixture of that. -/
structure Registers (g : MemoryGateway) (r : Registration) (restaurant : Restaurant) (f : Fixture) :
    Prop where
  answer : (Gateway.register r g).1 = .ok restaurant
  fixture : Fixture.ofRestaurant restaurant = .ok f
  /-- The menu is the one that was asked for. -/
  menu : restaurant.menus.map (fun item => (item.name, item.description, item.price)) =
    r.menus.map fun t => (t.name, t.description, t.price)
  distinct : (restaurant.menus.map MenuItem.itemId).Nodup
  fresh : ∀ item ∈ restaurant.menus, ∀ other ∈ g.restaurants, ∀ held ∈ other.menus,
    held.itemId ≠ item.itemId

theorem Sound.registers {g : MemoryGateway} (h : g.Sound) {r : Registration} (ha : r.Accepted)
    (hf : g.registrationAttempts ∉ g.failingAttempts) :
    g.Registers r (g.registered r) ⟨idOf g.nextId, (g.registered r).menus⟩ := by
  have hmenus : (g.registered r).menus = newItems (idOf g.nextId).text r.menus := by
    simp [registered, h.unstripped]
  have hentries := newItems_entries (idOf g.nextId).text r.menus
  constructor
  case answer =>
    show (register r g).1 = _
    rw [register_eq, if_neg (by simpa using hf)]
  case fixture =>
    refine Fixture.new_eq_ok_iff.2 ⟨rfl, ?_⟩
    rw [Fixture.isUsable_iff, Fixture.check_eq_ok_iff]
    refine ⟨?_, ?_, ?_⟩
    · exact idOf_not_blank g.nextId
    · show (g.registered r).menus ≠ []
      rw [hmenus]
      intro hnil
      rw [hnil] at hentries
      exact ha.menu_ne_nil (List.map_eq_nil_iff.1 hentries.symm)
    · show Fixture.checkItems _ _ (g.registered r).menus = _
      rw [hmenus]
      apply Fixture.checkItems_eq_ok _ (nodup_newItems_ids g.nextId r.menus) (by simp)
      intro item hi
      obtain ⟨i, hid⟩ := exists_itemIdOf hi
      have he := List.mem_map_of_mem (f := fun item => (item.name, item.description, item.price)) hi
      rw [hentries] at he
      obtain ⟨t, ht, he⟩ := List.mem_map.1 he
      simp only [Prod.mk.injEq] at he
      exact ha.check ht (hid.symm ▸ itemIdOf_not_blank g.nextId i) he.2.2.symm
  case menu => rw [hmenus, hentries]
  case distinct => rw [hmenus]; exact nodup_newItems_ids g.nextId r.menus
  case fresh =>
    intro item hi other ho held hh he
    rw [hmenus] at hi
    obtain ⟨i, hid⟩ := exists_itemIdOf hi
    obtain ⟨number, j, hlt, hid'⟩ := h.items other ho held hh
    -- every number in the gateway is below the one that is given now
    have hn := (itemIdOf_inj (hid'.symm.trans (he.trans hid))).1
    omega

/-- At a gateway that was started empty, whatever has been done with it since: an accepted registration
that is not to fail becomes a usable fixture with the menu that was asked for, under new identifiers,
and every order from that fixture or from a listed restaurant is served at its listed prices, then and
whenever later. -/
theorem fixtures_served (earlier : List Operation)
    (he : ∀ operation ∈ earlier, operation.IsOrdinary) :
    (∀ r : Registration, r.Accepted →
      (performAll {} earlier).registrationAttempts ∉ (performAll {} earlier).failingAttempts →
      ∃ restaurant f, (performAll {} earlier).Registers r restaurant f ∧
        ∀ later : List Operation, (∀ operation ∈ later, operation.IsOrdinary) →
          ((Gateway.register r (performAll {} earlier)).2.performAll later).Serves f) ∧
    (∀ area listed, (Gateway.list area (performAll {} earlier)).1 = .ok listed →
      ∀ restaurant ∈ listed, ∀ f, Fixture.ofRestaurant restaurant = .ok f →
        ∀ later : List Operation, (∀ operation ∈ later, operation.IsOrdinary) →
          ((Gateway.list area (performAll {} earlier)).2.performAll later).Serves f) := by
  have hs := (Sound.performAll earlier sound_empty he).1
  generalize performAll {} earlier = g at hs ⊢
  constructor
  · intro r ha hf
    have hr := hs.registers ha hf
    refine ⟨_, _, hr, ?_⟩
    intro later hl
    have hnext : (g.perform (.ask (.register r))).Sound := hs.perform trivial
    obtain ⟨hs', hm⟩ := Sound.performAll later hnext hl
    refine hs'.serves (hm ?_) hr.fixture
    show g.registered r ∈ (register r g).2.restaurants
    rw [register_eq, if_neg (by simpa using hf)]
    exact List.mem_append_right _ List.mem_cons_self
  · intro area listed ha restaurant hr f hf later hl
    have hnext : (g.perform (.ask (.list area))).Sound := hs.perform trivial
    obtain ⟨hs', hm⟩ := Sound.performAll later hnext hl
    refine hs'.serves (hm ?_) hf
    show restaurant ∈ (list area g).2.restaurants
    replace ha : (list area g).1 = .ok listed := ha
    unfold list at ha ⊢
    dsimp only at ha ⊢
    split at ha
    · cases ha
    · cases ha
      split <;> exact hr

/-- A registration with the shortest menu. -/
def soupKitchen : Registration :=
  ⟨"Soup Kitchen", "soup@example.com", "00000000000000000000000000000000", 9.05, 38.75,
    [⟨"Shiro", "", 50.0⟩, ⟨"Misir", "", 60.5⟩, ⟨"Kik", "", 75.25⟩, ⟨"Gomen", "", 99.99⟩,
      ⟨"Tibs", "", 500.0⟩]⟩

theorem soupKitchen_accepted : soupKitchen.Accepted := ⟨by decide +kernel, by decide +kernel⟩

/-- A failed attempt, and then a restaurant with two dishes. -/
def opening : List Operation := [.failAttempts [0], .ask (.register soupKitchen), .seed 2]

theorem fixtures_served_opening :
    (∀ operation ∈ opening, operation.IsOrdinary) ∧ soupKitchen.Accepted ∧
      1 ∉ (performAll {} opening).failingAttempts ∧
      (∃ restaurant f, (performAll {} opening).Registers soupKitchen restaurant f ∧
        ((Gateway.register soupKitchen (performAll {} opening)).2.performAll [.seed 0]).Serves f) ∧
      ∃ listed restaurant f, (Gateway.list .discovery (performAll {} opening)).1 = .ok listed ∧
        restaurant ∈ listed ∧ Fixture.ofRestaurant restaurant = .ok f ∧
        ((Gateway.list .discovery (performAll {} opening)).2.performAll [.seed 0]).Serves f := by
  have ho : ∀ operation ∈ opening, operation.IsOrdinary := by simp [opening, Operation.IsOrdinary]
  have hl : ∀ operation ∈ [Operation.seed 0], operation.IsOrdinary := by simp [Operation.IsOrdinary]
  have hf : 1 ∉ (performAll {} opening).failingAttempts := by decide +kernel
  obtain ⟨hregister, hlist⟩ := fixtures_served opening ho
  refine ⟨ho, soupKitchen_accepted, hf, ?_, ?_⟩
  · obtain ⟨restaurant, f, hr, hs⟩ := hregister soupKitchen soupKitchen_accepted hf
    exact ⟨restaurant, f, hr, hs _ hl⟩
  · obtain ⟨f, hmade⟩ : ∃ f, Fixture.ofRestaurant (MemoryGateway.seed {} 2).1 = .ok f := ⟨_, rfl⟩
    refine ⟨_, _, f, rfl, List.mem_cons_self, hmade, ?_⟩
    exact hlist _ _ rfl _ List.mem_cons_self f hmade _ hl

end MemoryGateway

end LunchRush
