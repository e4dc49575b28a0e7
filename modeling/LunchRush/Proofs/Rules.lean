import LunchRush.Proofs.Files.Reloading
import LunchRush.Proofs.Load.Orders
import LunchRush.Proofs.Seeding.Accounts
/-!
# The rules of a fixture

`Fixture.KeepsRules` says what a fixture must be, without the check that decides it. Where several
rules are broken, `Fixture.FirstBroken` says which one is reported: those about the restaurant come
first, and on the menu the first position counts at which something is wrong (`BrokenAt`). The check
goes down the menu with the identifiers that it has seen, so what it says of a rest of the menu is
stated with the items that came before (`checkItems_eq_error_iff`). Whoever reads fixtures keeps
those that keep the rules, in their order (`rules_decided`).
-/

namespace LunchRush

/-! ## Rules -/

/-- A text with something besides white space. -/
def IsNamed (text : String) : Prop := ∃ c ∈ text.toList, Text.isSpace c = false

/-- What an item of a menu must be. -/
structure MenuItem.KeepsRules (item : MenuItem) : Prop where
  named : IsNamed item.itemId.text
  finite : item.price.isFinite = true
  notNegative : ¬ item.price < 0

/-- What a fixture must be. -/
structure Fixture.KeepsRules (f : Fixture) : Prop where
  named : IsNamed f.restaurantId.text
  listed : f.menus ≠ []
  items : ∀ item ∈ f.menus, item.KeepsRules
  distinct : (f.menus.map fun item => item.itemId.text).Nodup

/-- What is wrong at a position of a menu: the identifier of the item, else its price, and else that
an earlier item has the same identifier. -/
inductive BrokenAt (restaurant : String) (menu : List MenuItem) (i : Nat) : Violation → Prop
  | unnamed {item : MenuItem} : menu[i]? = some item → ¬ IsNamed item.itemId.text →
      BrokenAt restaurant menu i (.blank .itemId)
  | price {item : MenuItem} : menu[i]? = some item → IsNamed item.itemId.text →
      item.price.isFinite = false ∨ item.price < 0 →
      BrokenAt restaurant menu i (.invalidPrice item.price)
  | repeated {item other : MenuItem} {j : Nat} : menu[i]? = some item → item.KeepsRules →
      j < i → menu[j]? = some other → other.itemId.text = item.itemId.text →
      BrokenAt restaurant menu i (.repeatedMenuItem restaurant item.itemId.text)

/-- The broken rule that counts. -/
inductive Fixture.FirstBroken (f : Fixture) : Violation → Prop
  | unnamed : ¬ IsNamed f.restaurantId.text → FirstBroken f (.blank .restaurantId)
  | unlisted : IsNamed f.restaurantId.text → f.menus = [] →
      FirstBroken f (.emptyMenu f.restaurantId.text)
  | item {i : Nat} {e : Violation} : IsNamed f.restaurantId.text →
      BrokenAt f.restaurantId.text f.menus i e →
      (∀ j < i, ∀ e', ¬ BrokenAt f.restaurantId.text f.menus j e') → FirstBroken f e

/-! ## The check of an item -/

theorem Identifier.isBlank_eq_false_iff {kind : Named} (id : Identifier kind) :
    id.isBlank = false ↔ IsNamed id.text := by
  simp [Identifier.isBlank, Text.isBlank, IsNamed]

theorem Identifier.isBlank_eq_true_iff {kind : Named} (id : Identifier kind) :
    id.isBlank = true ↔ ¬ IsNamed id.text := by
  rw [← Identifier.isBlank_eq_false_iff, Bool.not_eq_false]

theorem MenuItem.check_eq_ok_iff (item : MenuItem) : item.check = .ok () ↔ item.KeepsRules := by
  unfold MenuItem.check
  split
  · rename_i hb
    rw [Identifier.isBlank_eq_true_iff] at hb
    constructor
    · intro h
      cases h
    · intro h
      exact absurd h.named hb
  · rename_i hb
    rw [Bool.not_eq_true, Identifier.isBlank_eq_false_iff] at hb
    split
    · rename_i hp
      constructor
      · intro h
        cases h
      · intro h
        simp [h.finite, h.notNegative] at hp
    · rename_i hp
      simp only [Bool.or_eq_true, Bool.not_eq_true', decide_eq_true_eq, not_or,
        Bool.not_eq_false] at hp
      constructor
      · intro _
        exact ⟨hb, hp.1, hp.2⟩
      · intro _
        rfl

theorem MenuItem.check_eq_error_iff (item : MenuItem) (e : Violation) : item.check = .error e ↔
    (¬ IsNamed item.itemId.text ∧ e = .blank .itemId) ∨
      (IsNamed item.itemId.text ∧ (item.price.isFinite = false ∨ item.price < 0) ∧
        e = .invalidPrice item.price) := by
  unfold MenuItem.check
  split
  · rename_i hb
    rw [Identifier.isBlank_eq_true_iff] at hb
    constructor
    · intro h
      cases h
      exact .inl ⟨hb, rfl⟩
    · rintro (⟨-, rfl⟩ | ⟨hn, -⟩)
      · rfl
      · exact absurd hn hb
  · rename_i hb
    rw [Bool.not_eq_true, Identifier.isBlank_eq_false_iff] at hb
    split
    · rename_i hp
      simp only [Bool.or_eq_true, Bool.not_eq_true', decide_eq_true_eq] at hp
      constructor
      · intro h
        cases h
        exact .inr ⟨hb, hp, rfl⟩
      · rintro (⟨hn, -⟩ | ⟨-, -, rfl⟩)
        · exact absurd hb hn
        · rfl
    · rename_i hp
      simp only [Bool.or_eq_true, Bool.not_eq_true', decide_eq_true_eq] at hp
      constructor
      · intro h
        cases h
      · rintro (⟨hn, -⟩ | ⟨-, hp', -⟩)
        · exact absurd hb hn
        · exact absurd hp' hp

/-! ## The check of a menu -/

namespace Fixture

/-- The check at a position of a menu. -/
def checkItem (restaurant : String) (seen : List ItemId) (item : MenuItem) : Except Violation Unit := do
  item.check
  if seen.contains item.itemId then .error (.repeatedMenuItem restaurant item.itemId.text) else .ok ()

theorem checkItems_cons (restaurant : String) (seen : List ItemId) (item : MenuItem)
    (items : List MenuItem) : checkItems restaurant seen (item :: items) =
      checkItem restaurant seen item >>= fun _ => checkItems restaurant (item.itemId :: seen) items := by
  rw [checkItems, checkItem]
  cases item.check with
  | error e => rfl
  | ok _ =>
    simp only [bind, Except.bind]
    split <;> rfl

/-- What is seen are the identifiers of the items before. -/
def Seen (seen : List ItemId) (before : List MenuItem) : Prop :=
  ∀ id, id ∈ seen ↔ id ∈ before.map MenuItem.itemId

theorem Seen.cons {seen : List ItemId} {before : List MenuItem} (h : Seen seen before)
    (item : MenuItem) : Seen (item.itemId :: seen) (before ++ [item]) := by
  intro id
  simp [h id, or_comm]

theorem Seen.exists_iff {seen : List ItemId} {before : List MenuItem} (h : Seen seen before)
    (item : MenuItem) (items : List MenuItem) : item.itemId ∈ seen ↔ ∃ j other, j < before.length ∧
      (before ++ item :: items)[j]? = some other ∧ other.itemId.text = item.itemId.text := by
  rw [h, List.mem_map]
  constructor
  · rintro ⟨other, hm, he⟩
    obtain ⟨j, hj, rfl⟩ := List.getElem_of_mem hm
    refine ⟨j, before[j], hj, ?_, congrArg Identifier.text he⟩
    rw [List.getElem?_append_left hj, List.getElem?_eq_getElem hj]
  · rintro ⟨j, other, hj, hget, he⟩
    rw [List.getElem?_append_left hj] at hget
    refine ⟨other, List.mem_of_getElem? hget, ?_⟩
    rcases hid : other.itemId with ⟨text⟩
    rcases hid' : item.itemId with ⟨text'⟩
    rw [hid, hid'] at he
    exact congrArg Identifier.mk he

/-- The check at a position finds what is wrong there. -/
theorem checkItem_eq_error_iff {seen : List ItemId} {before : List MenuItem} (h : Seen seen before)
    (restaurant : String) (item : MenuItem) (items : List MenuItem) (e : Violation) :
    checkItem restaurant seen item = .error e ↔
      BrokenAt restaurant (before ++ item :: items) before.length e := by
  have hget : (before ++ item :: items)[before.length]? = some item := by simp
  constructor
  · intro hc
    unfold checkItem at hc
    cases hi : item.check with
    | error e' =>
      rw [hi] at hc
      cases hc
      rcases (item.check_eq_error_iff e).1 hi with ⟨hn, rfl⟩ | ⟨hn, hp, rfl⟩
      · exact .unnamed hget hn
      · exact .price hget hn hp
    | ok _ =>
      simp only [hi, bind, Except.bind] at hc
      split at hc
      · rename_i hs
        cases hc
        obtain ⟨j, other, hj, hother, he⟩ := (h.exists_iff item items).1 (by simpa using hs)
        exact .repeated hget (item.check_eq_ok_iff.1 hi) hj hother he
      · cases hc
  · intro hb
    unfold checkItem
    cases hb with
    | unnamed hget' hn =>
      cases hget.symm.trans hget'
      rw [(item.check_eq_error_iff _).2 (.inl ⟨hn, rfl⟩)]
      rfl
    | price hget' hn hp =>
      cases hget.symm.trans hget'
      rw [(item.check_eq_error_iff _).2 (.inr ⟨hn, hp, rfl⟩)]
      rfl
    | repeated hget' hk hj hother he =>
      cases hget.symm.trans hget'
      have hs := (h.exists_iff item items).2 ⟨_, _, hj, hother, he⟩
      simp [item.check_eq_ok_iff.2 hk, hs, bind, Except.bind]

/-- The check of the rest of a menu reports the first position from there on at which something is
wrong. -/
theorem checkItems_eq_error_iff {seen : List ItemId} {before items : List MenuItem}
    (h : Seen seen before) (restaurant : String) (e : Violation) :
    checkItems restaurant seen items = .error e ↔ ∃ i, before.length ≤ i ∧
      BrokenAt restaurant (before ++ items) i e ∧
      ∀ j, before.length ≤ j → j < i → ∀ e', ¬ BrokenAt restaurant (before ++ items) j e' := by
  induction items generalizing seen before with
  | nil =>
    constructor
    · intro hc
      cases hc
    · rintro ⟨i, hi, hb, -⟩
      have hnone : (before ++ [])[i]? = none := by simpa using hi
      cases hb <;> simp_all
  | cons item items ih =>
    have hhere := checkItem_eq_error_iff h restaurant item items
    rw [checkItems_cons]
    cases hc : checkItem restaurant seen item with
    | error first =>
      have hfirst := (hhere first).1 hc
      constructor
      · intro he
        cases he
        exact ⟨before.length, Nat.le_refl _, hfirst, fun j hj hlt => absurd hj (Nat.not_le.2 hlt)⟩
      · rintro ⟨i, hi, hb, hmin⟩
        rcases hi.lt_or_eq with hlt | rfl
        · exact absurd hfirst (hmin _ (Nat.le_refl _) hlt first)
        · rw [← (hhere e).2 hb, hc]
          rfl
    | ok _ =>
      have hsound : ∀ e', ¬ BrokenAt restaurant (before ++ item :: items) before.length e' := by
        intro e' hb
        rw [(hhere e').2 hb] at hc
        cases hc
      have hrest := ih (h.cons item)
      rw [List.append_assoc, List.singleton_append, List.length_append, List.length_singleton] at hrest
      refine hrest.trans (exists_congr fun i => ?_)
      constructor
      · rintro ⟨hi, hb, hmin⟩
        refine ⟨by omega, hb, fun j hj hlt => ?_⟩
        rcases hj.lt_or_eq with hgt | rfl
        · exact hmin j hgt hlt
        · exact hsound
      · rintro ⟨hi, hb, hmin⟩
        rcases hi.lt_or_eq with hgt | rfl
        · exact ⟨hgt, hb, fun j hj => hmin j (by omega)⟩
        · exact absurd hb (hsound e)

theorem checked_of_checkItems {restaurant : String} {seen : List ItemId} {items : List MenuItem}
    (h : checkItems restaurant seen items = .ok ()) : ∀ item ∈ items, item.check = .ok () := by
  induction items generalizing seen with
  | nil => nofun
  | cons item items ih =>
    rw [checkItems_cons] at h
    obtain ⟨_, hitem, hitems⟩ := ok_of_bind h
    intro other hm
    rcases List.mem_cons.1 hm with rfl | hm
    · unfold checkItem at hitem
      obtain ⟨_, hcheck, -⟩ := ok_of_bind hitem
      exact hcheck
    · exact ih hitems other hm

theorem nodup_texts_iff (items : List MenuItem) :
    (items.map fun item => item.itemId.text).Nodup ↔ (items.map MenuItem.itemId).Nodup := by
  have hinj : Function.Injective (Identifier.text : ItemId → String) := by
    rintro ⟨a⟩ ⟨b⟩ rfl
    rfl
  rw [← List.nodup_map_iff hinj, List.map_map]
  rfl

/-! ## The check of a fixture -/

theorem check_eq_ok_iff_keepsRules (f : Fixture) : f.check = .ok () ↔ f.KeepsRules := by
  rw [check_eq_ok_iff, Identifier.isBlank_eq_false_iff]
  constructor
  · rintro ⟨hn, hl, hitems⟩
    refine ⟨hn, hl, ?_, (nodup_texts_iff _).2 (items_of_checkItems hitems).1⟩
    intro item hm
    exact item.check_eq_ok_iff.1 (checked_of_checkItems hitems item hm)
  · intro h
    refine ⟨h.named, h.listed, checkItems_eq_ok ?_ ((nodup_texts_iff _).1 h.distinct) (by simp)⟩
    intro item hm
    exact item.check_eq_ok_iff.2 (h.items item hm)

theorem check_eq_error_iff (f : Fixture) (e : Violation) : f.check = .error e ↔ f.FirstBroken e := by
  have hseen : Seen [] [] := by simp [Seen]
  have hitems : checkItems f.restaurantId.text [] f.menus = .error e ↔ _ :=
    checkItems_eq_error_iff hseen f.restaurantId.text e
  simp only [List.length_nil, Nat.zero_le, true_and, forall_true_left, List.nil_append] at hitems
  unfold check
  split
  · rename_i hb
    rw [Identifier.isBlank_eq_true_iff] at hb
    constructor
    · intro h
      cases h
      exact .unnamed hb
    · intro h
      cases h with
      | unnamed _ => rfl
      | unlisted hn _ => exact absurd hn hb
      | item hn _ _ => exact absurd hn hb
  · rename_i hb
    rw [Bool.not_eq_true, Identifier.isBlank_eq_false_iff] at hb
    split
    · rename_i hm
      have hnil : f.menus = [] := by simpa [hasMenu] using hm
      constructor
      · intro h
        cases h
        exact .unlisted hb hnil
      · intro h
        cases h with
        | unnamed hn => exact absurd hb hn
        | unlisted _ _ => rfl
        | item _ hbroken _ => cases hbroken <;> simp_all
    · rename_i hm
      have hlisted : f.menus ≠ [] := by simpa [hasMenu] using hm
      rw [hitems]
      constructor
      · rintro ⟨i, hbroken, hmin⟩
        exact .item hb hbroken hmin
      · intro h
        cases h with
        | unnamed hn => exact absurd hb hn
        | unlisted _ hnil => exact absurd hnil hlisted
        | item _ hbroken hmin => exact ⟨_, hbroken, hmin⟩

/-- An identifier that comes twice is reported before the price of a later item. -/
example : (⟨⟨"r"⟩, [⟨⟨"i"⟩, "Soup", "", 60.0⟩, ⟨⟨"i"⟩, "Stew", "", 75.5⟩, ⟨⟨"k"⟩, "Tea", "", -1.0⟩]⟩ :
    Fixture).check = .error (.repeatedMenuItem "r" "i") := by decide +kernel

instance (f : Fixture) : Decidable f.KeepsRules :=
  decidable_of_iff (f.isUsable = true) ((isUsable_iff f).trans (check_eq_ok_iff_keepsRules f))

end Fixture

/-! ## Readers -/

theorem isUsable_eq_keepsRules (f : Fixture) : f.isUsable = decide f.KeepsRules := by
  rw [Bool.eq_iff_iff, decide_eq_true_iff, Fixture.isUsable_iff, Fixture.check_eq_ok_iff_keepsRules]

/-- Whoever reads some fixtures is left with the same ones. -/
structure ReadersKeep (fixtures kept : List Fixture) : Prop where
  usable : (Document.mk fixtures).usable = kept
  retained : (Document.mk fixtures).retainUsable = (⟨kept⟩, fixtures.length - kept.length)
  /-- A store whose file holds them. -/
  loaded : ∀ (s : Store) (files : FileTree) (text : String), files.readText s.path = .ok text →
    Text.isBlank text = false → Document.ofYaml? text = some ⟨fixtures⟩ →
    ∃ events, s.load files = .ok (⟨kept⟩, events)
  /-- Seeding at a gateway that lists them. -/
  discovered : ∀ (σ γ : Type) [Gateway γ] (r : Seeding.Run σ γ) (listed : List Restaurant),
    (Gateway.list r.seeder.config.area r.site.gateway).1 = .ok listed →
    listed.map Seeding.fixtureOf = fixtures → r.discover.1 = .ok kept
  /-- A load run against them. -/
  driven : ∀ (customer : CustomerId) (accepted : List Nat) (seed : Option UInt64),
    (Traffic.ofDocument ⟨fixtures⟩ customer accepted seed).1.fixtures = kept

theorem discover_of_listed {σ γ : Type} [Gateway γ] (r : Seeding.Run σ γ) {listed : List Restaurant}
    (h : (Gateway.list r.seeder.config.area r.site.gateway).1 = .ok listed) :
    r.discover.1 = .ok (Seeding.usableOf listed) := by
  unfold Seeding.Run.discover
  rw [← Seeding.filterMap_ofRestaurant]
  split
  rename_i answer gateway hanswer
  rw [hanswer] at h
  subst h
  rfl

theorem readersKeep_usable (fixtures : List Fixture) :
    ReadersKeep fixtures (fixtures.filter Fixture.isUsable) where
  usable := rfl
  retained := rfl
  loaded := by
    intro s files text hread hblank hdocument
    rw [Store.load_of_readText hread, Store.ofText, hblank, hdocument]
    exact ⟨_, rfl⟩
  discovered := by
    rintro σ γ _ r listed hlisted rfl
    exact discover_of_listed r hlisted
  driven := by
    intro customer accepted seed
    rfl

/-- The check of a fixture decides its rules, and reports the broken rule that counts. So whoever reads
a list of fixtures keeps those that keep the rules, in their order. -/
theorem rules_decided (f : Fixture) (fixtures : List Fixture) :
    (f.check = .ok () ↔ f.KeepsRules) ∧
      (∀ e, f.check = .error e ↔ f.FirstBroken e) ∧
      ReadersKeep fixtures (fixtures.filter fun f => decide f.KeepsRules) := by
  refine ⟨f.check_eq_ok_iff_keepsRules, f.check_eq_error_iff, ?_⟩
  have hsame : (fun f : Fixture => decide f.KeepsRules) = Fixture.isUsable :=
    funext fun f => (isUsable_eq_keepsRules f).symm
  rw [hsame]
  exact readersKeep_usable fixtures

end LunchRush
