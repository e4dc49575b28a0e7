import LunchRush.Http.Client
import LunchRush.Proofs.Json.Exact
import LunchRush.Proofs.Json.Grammar
import LunchRush.Proofs.Text.Utf8
import LunchRush.Wire.Read
/-!
# Listings in JSON text

The record of a listing may have its fields in any order and others beside them; an empty list may be null or
left out, and so may an empty text or a zero. Every such text is read as the listing that it writes, and
a text in which an identifier is missing, a field is given twice or a text or a number is null is read as
none (`listing_decoded`).
-/

namespace LunchRush

open Json Json.Tree

/-! ## Fields of records -/

namespace Json.Tree

/-- The values under a name. -/
def under (name : String) (fields : List (Option String × Tree)) : List Tree :=
  fields.filterMap fun field => if field.1 = some name then some field.2 else none

theorem under_cons (name : String) (key : Option String) (value : Tree)
    (fields : List (Option String × Tree)) : under name ((key, value) :: fields) =
      if key = some name then value :: under name fields else under name fields := by
  rw [under, List.filterMap_cons]
  by_cases h : key = some name <;> simp only [h, if_true, if_false] <;> rfl

theorem mem_under {name : String} {fields : List (Option String × Tree)} {value : Tree} :
    value ∈ under name fields ↔ (some name, value) ∈ fields := by
  unfold under
  rw [List.mem_filterMap]
  constructor
  · rintro ⟨⟨key, other⟩, hfield, h⟩
    dsimp only at h
    split at h
    · rename_i hkey
      cases h
      exact hkey ▸ hfield
    · cases h
  · intro h
    exact ⟨_, h, if_pos rfl⟩

theorem entries?_cons (key : Option String) (value : Tree) (fields : List (Option String × Tree)) :
    entries? ((key, value) :: fields) =
      key.bind fun key => (entries? fields).map ((key, value) :: ·) := by
  cases key with
  | none => rfl
  | some key =>
    rw [entries?, List.mapM_cons]
    change (entries? fields).bind _ = _
    cases entries? fields <;> rfl

/-- The entries of a record are its fields, whose keys are texts. -/
theorem entries?_eq_some {fields : List (Option String × Tree)} {entries : List (String × Tree)} :
    entries? fields = some entries ↔ fields = entries.map fun entry => (some entry.1, entry.2) := by
  induction fields generalizing entries with
  | nil => cases entries <;> simp [entries?]
  | cons field fields ih =>
    obtain ⟨key, value⟩ := field
    rw [entries?_cons]
    constructor
    · intro h
      obtain ⟨key, rfl, h⟩ := Option.bind_eq_some_iff.1 h
      obtain ⟨rest, hrest, rfl⟩ := Option.map_eq_some_iff.1 h
      rw [List.map_cons, ← ih.1 hrest]
    · intro h
      cases entries with
      | nil => cases h
      | cons entry rest =>
        rw [List.map_cons, List.cons.injEq, Prod.mk.injEq] at h
        obtain ⟨⟨rfl, rfl⟩, hrest⟩ := h
        rw [ih.2 hrest]
        rfl

theorem exists_entries {fields : List (Option String × Tree)} (h : ∀ field ∈ fields, field.1.isSome = true) :
    ∃ entries : List (String × Tree), fields = entries.map fun entry => (some entry.1, entry.2) := by
  induction fields with
  | nil => exact ⟨[], rfl⟩
  | cons field fields ih =>
    obtain ⟨hkey, hfields⟩ := List.forall_mem_cons.1 h
    obtain ⟨key, hkey⟩ := Option.isSome_iff_exists.1 hkey
    obtain ⟨entries, rfl⟩ := ih hfields
    exact ⟨(key, field.2) :: entries, by rw [List.map_cons, ← hkey]⟩

theorem under_entries (name : String) (entries : List (String × Tree)) :
    under name (entries.map fun entry => (some entry.1, entry.2)) =
      (entries.filter (·.1 == name)).map (·.2) := by
  induction entries with
  | nil => rfl
  | cons entry entries ih =>
    rw [List.map_cons, under_cons, ih, List.filter_cons]
    by_cases h : entry.1 = name <;> simp [h]

end Json.Tree

namespace Form

/-- Fields are picked exactly if no asked-for name is given twice. -/
theorem pick?_eq_some {v : Type} {entries : List (String × v)} {names : List String}
    {values : List (Option v)} : pick? entries names = some values ↔ List.Forall₂
      (fun name value => (entries.filter (·.1 == name)).map (·.2) = Option.toList value) names values := by
  induction names generalizing values with
  | nil => cases values <;> simp [pick?]
  | cons name names ih =>
    rw [pick?]
    constructor
    · intro h
      split at h
      · rename_i hnone
        obtain ⟨rest, hrest, rfl⟩ := Option.map_eq_some_iff.1 h
        exact .cons (by rw [hnone]; rfl) (ih.1 hrest)
      · rename_i key value hone
        obtain ⟨rest, hrest, rfl⟩ := Option.map_eq_some_iff.1 h
        exact .cons (by rw [hone]; rfl) (ih.1 hrest)
      · cases h
    · rintro (_ | ⟨hfirst, hrest⟩)
      rename_i value rest
      cases value with
      | none =>
        rw [List.map_eq_nil_iff.1 hfirst, ih.2 hrest]
        rfl
      | some value =>
        obtain ⟨⟨key, other⟩, hone, rfl⟩ := List.map_eq_singleton_iff.1 hfirst
        rw [hone, ih.2 hrest]
        rfl

end Form

namespace Json.Tree

/-- The fields of a record, each of which is given once or not at all. -/
theorem fields?_record {names : List String} {fields : List (Option String × Tree)}
    {values : List (Option Tree)} : Form.fields? names (.record fields) = some values ↔
      (∀ field ∈ fields, field.1.isSome = true) ∧
        List.Forall₂ (fun name value => under name fields = Option.toList value) names values := by
  change (entries? fields).bind (Form.pick? · names) = some values ↔ _
  constructor
  · intro h
    obtain ⟨entries, hentries, hpick⟩ := Option.bind_eq_some_iff.1 h
    obtain rfl := entries?_eq_some.1 hentries
    refine ⟨fun field hfield => ?_, ?_⟩
    · obtain ⟨entry, -, rfl⟩ := List.mem_map.1 hfield
      rfl
    · simpa only [under_entries] using Form.pick?_eq_some.1 hpick
  · rintro ⟨hkeys, hvalues⟩
    obtain ⟨entries, rfl⟩ := exists_entries hkeys
    rw [entries?_eq_some.2 rfl]
    simp only [under_entries] at hvalues
    exact Form.pick?_eq_some.2 hvalues

end Json.Tree

/-! ## What a text writes -/

section

variable (W : Numeral → Float → Prop)

/-- A text under its name. -/
inductive WritesText : String → Option Tree → Prop
  | written {s : String} : WritesText s (some (.text (some s)))
  | leftOut : WritesText "" none

/-- A number under its name, its numeral being one of those that stand for it. -/
inductive WritesNumber : Float → Option Tree → Prop
  | written {n : Numeral} {x : Float} : W n x → WritesNumber x (some (.number n))
  | leftOut : WritesNumber 0.0 none

/-- A list under its name. -/
inductive WritesList {α : Type} (writes : α → Tree → Prop) : List α → Option Tree → Prop
  | written {items : List α} {trees : List Tree} : List.Forall₂ writes items trees →
      WritesList writes items (some (.list trees))
  | nothing : WritesList writes [] (some .null)
  | leftOut : WritesList writes [] none

/-- A record that writes a menu item, whatever other fields it has. -/
inductive WritesItem (item : MenuItem) : Tree → Prop
  | record {fields : List (Option String × Tree)} {name description price : Option Tree} :
      (∀ field ∈ fields, field.1.isSome = true) →
      under "item_id" fields = [.text (some item.itemId.text)] →
      under "name" fields = name.toList → WritesText item.name name →
      under "description" fields = description.toList → WritesText item.description description →
      under "price" fields = price.toList → WritesNumber W item.price price →
      WritesItem item (.record fields)

/-- A record that writes a restaurant. -/
inductive WritesRestaurant (r : Restaurant) : Tree → Prop
  | record {fields : List (Option String × Tree)} {name email latitude longitude menus : Option Tree} :
      (∀ field ∈ fields, field.1.isSome = true) →
      under "restaurant_id" fields = [.text (some r.restaurantId.text)] →
      under "name" fields = name.toList → WritesText r.name name →
      under "email" fields = email.toList → WritesText r.email email →
      under "latitude" fields = latitude.toList → WritesNumber W r.latitude latitude →
      under "longitude" fields = longitude.toList → WritesNumber W r.longitude longitude →
      under "menus" fields = menus.toList → WritesList (WritesItem W) r.menus menus →
      WritesRestaurant r (.record fields)

/-- A record that writes a listing. -/
inductive WritesListing (listing : List Restaurant) : Tree → Prop
  | record {fields : List (Option String × Tree)} {restaurants : Option Tree} :
      (∀ field ∈ fields, field.1.isSome = true) →
      under "restaurants" fields = restaurants.toList →
      WritesList (WritesRestaurant W) listing restaurants → WritesListing listing (.record fields)

end

/-! ## What is written is read -/

theorem mapM_of_forall₂ {α β : Type} {f : α → Option β} {xs : List α} {ys : List β}
    (h : List.Forall₂ (fun y x => f x = some y) ys xs) : xs.mapM f = some ys := by
  induction h with
  | nil => rfl
  | cons hy _ ih =>
    rw [List.mapM_cons, hy, ih]
    rfl

theorem textOrEmpty?_of_writes {s : String} {value : Option Tree} (h : WritesText s value) :
    Form.textOrEmpty? value = some s := by
  cases h <;> rfl

theorem listOrEmpty?_of_writes {α : Type} {writes : α → Tree → Prop} {f : Tree → Option α}
    (hf : ∀ a tree, writes a tree → f tree = some a) {items : List α} {value : Option Tree}
    (h : WritesList writes items value) : Form.listOrEmpty? f value = some items := by
  cases h with
  | written hitems => exact mapM_of_forall₂ (hitems.imp hf)
  | nothing | leftOut => rfl

section

variable {W : Numeral → Float → Prop} (hW : ∀ n x, W n x → n.float? = some x)
include hW

theorem floatOrZero?_of_writes {x : Float} {value : Option Tree} (h : WritesNumber W x value) :
    Form.floatOrZero? value = some x := by
  cases h with
  | written hn => exact hW _ _ hn
  | leftOut => rfl

theorem ofForm?_of_writesItem (item : MenuItem) (tree : Tree) (h : WritesItem W item tree) :
    MenuItem.ofForm? tree = some item := by
  obtain ⟨hkeys, hid, hname, hwname, hdescription, hwdescription, hprice, hwprice⟩ := h
  have hfields := fields?_record.2 ⟨hkeys,
    .cons (show under "item_id" _ = (some (Tree.text (some item.itemId.text))).toList from hid)
      (.cons hname (.cons hdescription (.cons hprice .nil)))⟩
  unfold MenuItem.ofForm?
  rw [show MenuItem.fieldNames = ["item_id", "name", "description", "price"] from rfl, hfields]
  simp only [Option.bind_eq_bind, Option.bind_some, textOrEmpty?_of_writes hwname,
    textOrEmpty?_of_writes hwdescription, floatOrZero?_of_writes hW hwprice]
  rfl

theorem ofForm?_of_writesRestaurant (r : Restaurant) (tree : Tree) (h : WritesRestaurant W r tree) :
    Restaurant.ofForm? tree = some r := by
  obtain ⟨hkeys, hid, hname, hwname, hemail, hwemail, hlatitude, hwlatitude, hlongitude, hwlongitude,
    hmenus, hwmenus⟩ := h
  have hfields := fields?_record.2 ⟨hkeys,
    .cons (show under "restaurant_id" _ = (some (Tree.text (some r.restaurantId.text))).toList from hid)
      (.cons hname (.cons hemail (.cons hlatitude (.cons hlongitude (.cons hmenus .nil)))))⟩
  unfold Restaurant.ofForm?
  rw [show Restaurant.fieldNames =
    ["restaurant_id", "name", "email", "latitude", "longitude", "menus"] from rfl, hfields]
  simp only [Option.bind_eq_bind, Option.bind_some, textOrEmpty?_of_writes hwname,
    textOrEmpty?_of_writes hwemail, floatOrZero?_of_writes hW hwlatitude,
    floatOrZero?_of_writes hW hwlongitude,
    listOrEmpty?_of_writes (ofForm?_of_writesItem hW) hwmenus]
  rfl

theorem listingOfForm?_of_writes {listing : List Restaurant} {tree : Tree}
    (h : WritesListing W listing tree) : listingOfForm? tree = some listing := by
  obtain ⟨hkeys, hrestaurants, hwrestaurants⟩ := h
  have hfields := fields?_record.2 ⟨hkeys, .cons hrestaurants .nil⟩
  unfold listingOfForm? restaurantsOfForm?
  rw [hfields]
  exact listOrEmpty?_of_writes (ofForm?_of_writesRestaurant hW) hwrestaurants

end

/-! ## What is rejected -/

/-- A value under a name of a record. Where the record is written as the list of its values, it stands in the
place of the name. -/
inductive FieldAt (names : List String) (name : String) : Tree → Tree → Prop
  | named {fields : List (Option String × Tree)} {value : Tree} : (some name, value) ∈ fields →
      FieldAt names name (.record fields) value
  | placed {items : List Tree} {value : Tree} {i : Nat} : names[i]? = some name → items[i]? = some value →
      FieldAt names name (.list items) value

theorem exists_mem_zip {α β : Type} {xs : List α} {ys : List β} (h : xs.length = ys.length) {x : α}
    (hx : x ∈ xs) : ∃ y, (x, y) ∈ xs.zip ys := by
  rw [← List.map_fst_zip h.le] at hx
  obtain ⟨⟨_, y⟩, hmem, rfl⟩ := List.mem_map.1 hx
  exact ⟨y, hmem⟩

/-- A list that stands for a record gives its items to the first names. -/
theorem getElem?_padded {items : List Tree} {missing i : Nat} {value : Tree} :
    (items.map some ++ List.replicate missing none)[i]? = some (some value) ↔ items[i]? = some value := by
  rw [List.getElem?_append, List.length_map]
  split
  · simp
  · rename_i h
    rw [List.getElem?_replicate, List.getElem?_eq_none (not_lt.1 h)]
    refine iff_of_false (fun h => ?_) nofun
    split at h <;> cases h

/-- A record that is read has a value for each name. -/
theorem length_of_fields? {names : List String} {tree : Tree} {values : List (Option Tree)}
    (h : Form.fields? names tree = some values) : names.length = values.length := by
  cases tree with
  | record fields => exact (fields?_record.1 h).2.length_eq
  | list items =>
    change (if items.length ≤ names.length then _ else none) = some values at h
    split at h
    · cases h
      rw [List.length_append, List.length_map, List.length_replicate]
      omega
    · cases h
  | _ => cases h

/-- The values that are read are those under the names. -/
theorem mem_zip_iff {names : List String} {tree : Tree} {values : List (Option Tree)}
    (h : Form.fields? names tree = some values) {name : String} (hname : name ∈ names) (value : Tree) :
    (name, some value) ∈ names.zip values ↔ FieldAt names name tree value := by
  cases tree with
  | record fields =>
    obtain ⟨hlength, hvalues⟩ := List.forall₂_iff_zip.1 (fields?_record.1 h).2
    constructor
    · intro hmem
      refine .named (mem_under.1 ?_)
      rw [hvalues hmem]
      exact List.mem_singleton_self value
    · rintro (hfield | _)
      obtain ⟨other, hmem⟩ := exists_mem_zip hlength hname
      have hunder := mem_under.2 hfield
      rw [hvalues hmem, Option.mem_toList] at hunder
      rwa [Option.mem_def.1 hunder] at hmem
  | list items =>
    change (if items.length ≤ names.length then _ else none) = some values at h
    split at h
    · cases h
      rw [List.mem_iff_getElem?]
      constructor
      · rintro ⟨i, hi⟩
        obtain ⟨hi, hvalue⟩ := List.getElem?_zip_eq_some.1 hi
        exact .placed hi (getElem?_padded.1 hvalue)
      · rintro (_ | ⟨hi, hvalue⟩)
        exact ⟨_, List.getElem?_zip_eq_some.2 ⟨hi, getElem?_padded.2 hvalue⟩⟩
    · cases h
  | _ => cases h

/-- Why no record with such names can be read. -/
inductive BrokenRecord (names : List String) (id : String) (filled : List String) : Tree → Prop
  | missing {tree : Tree} : (∀ value, ¬ FieldAt names id tree value) → BrokenRecord names id filled tree
  | repeated {fields : List (Option String × Tree)} {name : String} : name ∈ names →
      2 ≤ (under name fields).length → BrokenRecord names id filled (.record fields)
  | null {tree : Tree} {name : String} : name ∈ filled → FieldAt names name tree .null →
      BrokenRecord names id filled tree

/-- A record that is read has its identifier, gives no name twice and has no null where one must not be. -/
theorem not_broken {names : List String} {id : String} {filled : List String} {tree : Tree}
    {values : List (Option Tree)} (h : Form.fields? names tree = some values) (hid : id ∈ names)
    (hfilled : filled ⊆ names) (hgiven : (id, none) ∉ names.zip values)
    (hnull : ∀ name ∈ filled, (name, some .null) ∉ names.zip values) :
    ¬ BrokenRecord names id filled tree := by
  rintro (hmissing | @⟨fields, name, hname, htwice⟩ | ⟨hname, hfield⟩)
  · obtain ⟨value, hmem⟩ := exists_mem_zip (length_of_fields? h) hid
    cases value with
    | none => exact hgiven hmem
    | some value => exact hmissing value ((mem_zip_iff h hid value).1 hmem)
  · obtain ⟨hlength, hvalues⟩ := List.forall₂_iff_zip.1 (fields?_record.1 h).2
    obtain ⟨value, hmem⟩ := exists_mem_zip hlength hname
    rw [hvalues hmem] at htwice
    cases value <;> simp at htwice
  · exact hnull _ hname ((mem_zip_iff h (hfilled hname) .null).2 hfield)

/-- The fields of a menu item that are not null. -/
def MenuItem.filled : List String := ["name", "description", "price"]

/-- The fields of a restaurant that are not null. -/
def Restaurant.filled : List String := ["name", "email", "latitude", "longitude"]

inductive BrokenRestaurant : Tree → Prop
  | record {tree : Tree} : BrokenRecord Restaurant.fieldNames "restaurant_id" Restaurant.filled tree →
      BrokenRestaurant tree
  | item {tree item : Tree} {items : List Tree} : FieldAt Restaurant.fieldNames "menus" tree (.list items) →
      item ∈ items → BrokenRecord MenuItem.fieldNames "item_id" MenuItem.filled item → BrokenRestaurant tree

inductive BrokenListing : Tree → Prop
  | repeated {fields : List (Option String × Tree)} : 2 ≤ (under "restaurants" fields).length →
      BrokenListing (.record fields)
  | restaurant {tree restaurant : Tree} {restaurants : List Tree} :
      FieldAt ["restaurants"] "restaurants" tree (.list restaurants) → restaurant ∈ restaurants →
      BrokenRestaurant restaurant → BrokenListing tree

/-! ## Why they are rejected -/

theorem MenuItem.ofForm?_fields {tree : Tree} {item : MenuItem} (h : MenuItem.ofForm? tree = some item) :
    ∃ id name description price, Form.fields? MenuItem.fieldNames tree = some [id, name, description, price] ∧
      (Form.identifier? .item id).isSome ∧ (Form.textOrEmpty? name).isSome ∧
      (Form.textOrEmpty? description).isSome ∧ (Form.floatOrZero? price).isSome := by
  unfold MenuItem.ofForm? at h
  simp only [Option.bind_eq_bind, Option.bind_eq_some_iff] at h
  obtain ⟨values, hvalues, h⟩ := h
  split at h
  · simp only [Option.bind_eq_some_iff] at h
    obtain ⟨_, hid, _, hname, _, hdescription, _, hprice, -⟩ := h
    exact ⟨_, _, _, _, hvalues, Option.isSome_of_eq_some hid, Option.isSome_of_eq_some hname,
      Option.isSome_of_eq_some hdescription, Option.isSome_of_eq_some hprice⟩
  · cases h

theorem Restaurant.ofForm?_fields {tree : Tree} {r : Restaurant} (h : Restaurant.ofForm? tree = some r) :
    ∃ id name email latitude longitude menus,
      Form.fields? Restaurant.fieldNames tree = some [id, name, email, latitude, longitude, menus] ∧
      (Form.identifier? .restaurant id).isSome ∧ (Form.textOrEmpty? name).isSome ∧
      (Form.textOrEmpty? email).isSome ∧ (Form.floatOrZero? latitude).isSome ∧
      (Form.floatOrZero? longitude).isSome ∧ (Form.listOrEmpty? MenuItem.ofForm? menus).isSome := by
  unfold Restaurant.ofForm? at h
  simp only [Option.bind_eq_bind, Option.bind_eq_some_iff] at h
  obtain ⟨values, hvalues, h⟩ := h
  split at h
  · simp only [Option.bind_eq_some_iff] at h
    obtain ⟨_, hid, _, hname, _, hemail, _, hlatitude, _, hlongitude, _, hmenus, -⟩ := h
    exact ⟨_, _, _, _, _, _, hvalues, Option.isSome_of_eq_some hid, Option.isSome_of_eq_some hname,
      Option.isSome_of_eq_some hemail, Option.isSome_of_eq_some hlatitude,
      Option.isSome_of_eq_some hlongitude, Option.isSome_of_eq_some hmenus⟩
  · cases h

theorem mapM_items {α β : Type} {f : α → Option β} {xs : List α} (h : (xs.mapM f).isSome) :
    ∀ x ∈ xs, (f x).isSome := by
  induction xs with
  | nil => exact nofun
  | cons x xs ih =>
    obtain ⟨ys, hys⟩ := Option.isSome_iff_exists.1 h
    rw [List.mapM_cons] at hys
    obtain ⟨y, hy, hys⟩ := Option.bind_eq_some_iff.1 hys
    obtain ⟨rest, hrest, -⟩ := Option.bind_eq_some_iff.1 hys
    exact List.forall_mem_cons.2 ⟨Option.isSome_of_eq_some hy, ih (Option.isSome_of_eq_some hrest)⟩

/-- A list that is read has no item that cannot be read. -/
theorem listOrEmpty?_items {α : Type} {f : Tree → Option α} {items : List Tree}
    (h : (Form.listOrEmpty? f (some (.list items))).isSome) : ∀ item ∈ items, (f item).isSome := mapM_items h

/-- Neither a text nor a number is null. -/
theorem textOrEmpty?_ne_null {value : Option Tree} (h : (Form.textOrEmpty? value).isSome) :
    value ≠ some .null := by
  rintro rfl
  cases h

theorem floatOrZero?_ne_null {value : Option Tree} (h : (Form.floatOrZero? value).isSome) :
    value ≠ some .null := by
  rintro rfl
  cases h

theorem identifier?_given {kind : Named} {value : Option Tree} (h : (Form.identifier? kind value).isSome) :
    value ≠ none := by
  rintro rfl
  cases h

theorem MenuItem.ofForm?_of_broken {tree : Tree}
    (h : BrokenRecord MenuItem.fieldNames "item_id" MenuItem.filled tree) : MenuItem.ofForm? tree = none := by
  rw [Option.eq_none_iff_forall_ne_some]
  intro item hread
  obtain ⟨id, name, description, price, hfields, hid, hname, hdescription, hprice⟩ :=
    MenuItem.ofForm?_fields hread
  refine not_broken hfields (by decide) (by decide) ?_ ?_ h
  · simpa [MenuItem.fieldNames] using (identifier?_given hid).symm
  · simpa [MenuItem.fieldNames, MenuItem.filled] using ⟨(textOrEmpty?_ne_null hname).symm,
      (textOrEmpty?_ne_null hdescription).symm, (floatOrZero?_ne_null hprice).symm⟩

theorem Restaurant.ofForm?_of_broken {tree : Tree} (h : BrokenRestaurant tree) :
    Restaurant.ofForm? tree = none := by
  rw [Option.eq_none_iff_forall_ne_some]
  intro r hread
  obtain ⟨id, name, email, latitude, longitude, menus, hfields, hid, hname, hemail, hlatitude, hlongitude,
    hmenus⟩ := Restaurant.ofForm?_fields hread
  cases h with
  | record h =>
    refine not_broken hfields (by decide) (by decide) ?_ ?_ h
    · simpa [Restaurant.fieldNames] using (identifier?_given hid).symm
    · simpa [Restaurant.fieldNames, Restaurant.filled] using ⟨(textOrEmpty?_ne_null hname).symm,
        (textOrEmpty?_ne_null hemail).symm, (floatOrZero?_ne_null hlatitude).symm,
        (floatOrZero?_ne_null hlongitude).symm⟩
  | @item item items hfield hitem hbroken =>
    have hmem := (mem_zip_iff hfields (by decide) _).2 hfield
    obtain rfl : menus = some (.list items) := by simpa [Restaurant.fieldNames, eq_comm] using hmem
    have hsome := listOrEmpty?_items hmenus item hitem
    rw [MenuItem.ofForm?_of_broken hbroken] at hsome
    cases hsome

theorem listingOfForm?_of_broken {tree : Tree} (h : BrokenListing tree) : listingOfForm? tree = none := by
  rw [Option.eq_none_iff_forall_ne_some]
  intro listing hread
  unfold listingOfForm? restaurantsOfForm? at hread
  obtain ⟨values, hfields, hread⟩ := Option.bind_eq_some_iff.1 hread
  cases h with
  | repeated htwice =>
    obtain ⟨-, _ | ⟨hvalue, -⟩⟩ := fields?_record.1 hfields
    rename_i value _
    rw [hvalue] at htwice
    cases value <;> simp at htwice
  | @restaurant _ restaurant restaurants hfield hmem hbroken =>
    have hzip := (mem_zip_iff hfields (by decide) _).2 hfield
    split at hread
    · obtain rfl : _ = some (Tree.list restaurants) := by simpa [eq_comm] using hzip
      have hsome := listOrEmpty?_items (Option.isSome_of_eq_some hread) restaurant hmem
      rw [Restaurant.ofForm?_of_broken hbroken] at hsome
      cases hsome
    · cases hread

/-! ## Responses -/

/-- Every text that writes a listing is read as that listing, as far as its numerals are exact, which short
ones are; and no text is read that lacks an identifier, gives a field twice or has a null for a text or a
number. The listing of a response that was served is what its body is read as. -/
theorem listing_decoded :
    (∀ n : Numeral, n.IsShort → n.IsExact) ∧
    (∀ s tree listing, Says s tree → WritesListing (fun n x => n.Denotes x ∧ n.IsExact) listing tree →
      listingOfJson? s = some listing) ∧
    (∀ s tree, Says s tree → BrokenListing tree → listingOfJson? s = none) ∧
    ∀ r : Http.Response, isServed r.status = true → r.whole = true →
      (∀ listing, listingOfJson? (Text.ofBytes r.body) = some listing → r.value listingOfJson? = .ok listing) ∧
      (listingOfJson? (Text.ofBytes r.body) = none →
        ∃ reason, r.value listingOfJson? = .error (.decode reason)) := by
  refine ⟨fun _ => Numeral.isExact_of_short, ?_, ?_, ?_⟩
  · intro s tree listing hs h
    rw [listingOfJson?, read?_of_says hs]
    exact listingOfForm?_of_writes (fun n x ⟨hx, hn⟩ => hn.trans (congrArg some hx)) h
  · intro s tree hs h
    rw [listingOfJson?, read?_of_says hs]
    exact listingOfForm?_of_broken h
  · intro r hserved hwhole
    have htext : r.text = .ok (Text.ofBytes r.body) := if_pos hwhole
    unfold Http.Response.value
    rw [hserved, htext]
    dsimp only
    refine ⟨fun listing h => ?_, fun h => ?_⟩
    · rw [h]
      rfl
    · rw [h]
      exact ⟨_, rfl⟩

/-- A listing that tells little of its one restaurant, and something else besides. -/
def sparse : Tree :=
  .record [(some "more", .bool true), (some "restaurants", .list [.record [(some "menus", .null),
    (some "restaurant_id", .text (some "r1")), (some "latitude", .number ⟨false, ['9'], some ['5'], none⟩)]])]

def sparseText : String :=
  "\x7b\"more\": true, \"restaurants\": [\x7b\"menus\": null, " ++
    "\"restaurant_id\": \"r1\", \"latitude\": 9.5\x7d]\x7d"

/-- A listing of a restaurant that has one dish, of which only the price is told. -/
def priced (price : Tree) : Tree :=
  .record [(some "restaurants", .list [.record [(some "restaurant_id", .text (some "r1")),
    (some "menus", .list [.record [(some "item_id", .text (some "i1")), (some "price", price)]])]])]

def pricedText (price : String) : String :=
  "\x7b\"restaurants\":[\x7b\"restaurant_id\":\"r1\"," ++
    "\"menus\":[\x7b\"item_id\":\"i1\",\"price\":" ++ price ++ "\x7d]\x7d]\x7d"

theorem says_sparse : Says sparseText sparse := by
  have hnone : Blank [] := nofun
  have hspace : Blank [' '] := by simp [Blank, isJsonSpace]
  have hlatitude : Spells (.value (.number ⟨false, ['9'], some ['5'], none⟩)) ['9', '.', '5'] :=
    .number (.parts ⟨by simp [Number.Digits], by decide, by decide, by simp [Number.Digits]⟩ .none)
  have hrestaurant := Spells.record
    (.field hnone (spellsText_plain (s := "menus") (by simp [IsPlain])) hnone hspace .nothing hnone
      (.field hspace (spellsText_plain (s := "restaurant_id") (by simp [IsPlain])) hnone hspace
        (.text (spellsText_plain (s := "r1") (by simp [IsPlain]))) hnone
        (.lastField hspace (spellsText_plain (s := "latitude") (by simp [IsPlain])) hnone hspace hlatitude
          hnone)))
  have h : Says _ sparse := .spelled hnone (.record
    (.field hnone (spellsText_plain (s := "more") (by simp [IsPlain])) hnone hspace .yes hnone
      (.lastField hspace (spellsText_plain (s := "restaurants") (by simp [IsPlain])) hnone hspace
        (.list (.lastItem hnone hrestaurant hnone)) hnone))) hnone
  convert h using 1
  exact String.toList_inj.1 (by delta sparseText; simp)

theorem says_priced {price : Tree} {s : String} (h : Spells (.value price) s.toList) :
    Says (pricedText s) (priced price) := by
  have hnone : Blank [] := nofun
  have hitem := Spells.record
    (.field hnone (spellsText_plain (s := "item_id") (by simp [IsPlain])) hnone hnone
      (.text (spellsText_plain (s := "i1") (by simp [IsPlain]))) hnone
      (.lastField hnone (spellsText_plain (s := "price") (by simp [IsPlain])) hnone hnone h hnone))
  have hrestaurant := Spells.record
    (.field hnone (spellsText_plain (s := "restaurant_id") (by simp [IsPlain])) hnone hnone
      (.text (spellsText_plain (s := "r1") (by simp [IsPlain]))) hnone
      (.lastField hnone (spellsText_plain (s := "menus") (by simp [IsPlain])) hnone hnone
        (.list (.lastItem hnone hitem hnone)) hnone))
  have h : Says _ (priced price) := .spelled hnone (.record
    (.lastField hnone (spellsText_plain (s := "restaurants") (by simp [IsPlain])) hnone hnone
      (.list (.lastItem hnone hrestaurant hnone)) hnone)) hnone
  convert h using 1
  exact String.toList_inj.1 (by delta pricedText; simp)

/-- Each list of fields becomes known before what is found under its names. -/
theorem writes_sparse {W : Numeral → Float → Prop} (hW : W ⟨false, ['9'], some ['5'], none⟩ 9.5) :
    WritesListing W [⟨⟨"r1"⟩, "", "", 9.5, 0.0, []⟩] sparse :=
  .record (by decide) (by rfl) (.written (.cons (.record (by decide) (by rfl) (by rfl) .leftOut (by rfl)
    .leftOut (by rfl) (.written hW) (by rfl) .leftOut (by rfl) .nothing) .nil))

theorem writes_priced {W : Numeral → Float → Prop} {n : Numeral} {price : Float} (hW : W n price) :
    WritesListing W [⟨⟨"r1"⟩, "", "", 0.0, 0.0, [⟨⟨"i1"⟩, "", "", price⟩]⟩] (priced (.number n)) :=
  .record (by simp) (by rfl) (.written (.cons (.record (by simp) (by rfl) (by rfl) .leftOut (by rfl) .leftOut
    (by rfl) .leftOut (by rfl) .leftOut (by rfl) (.written (.cons (.record (by simp) (by rfl) (by rfl) .leftOut
      (by rfl) .leftOut (by rfl) (.written hW)) .nil))) .nil))

theorem broken_priced : BrokenListing (priced .null) := by
  have hprice : "price" ∈ MenuItem.filled := by decide
  exact .restaurant (.named List.mem_cons_self) List.mem_cons_self
    (.item (.named (List.mem_cons_of_mem _ List.mem_cons_self)) List.mem_cons_self
      (.null hprice (.named (List.mem_cons_of_mem _ List.mem_cons_self))))

theorem listing_decoded_sparse : Says sparseText sparse ∧
    listingOfJson? sparseText = some [⟨⟨"r1"⟩, "", "", 9.5, 0.0, []⟩] ∧
    Says (pricedText "null") (priced .null) ∧ listingOfJson? (pricedText "null") = none ∧
    ∃ reason, (⟨200, (pricedText "null").toUTF8.toList, true, none⟩ : Http.Response).value listingOfJson? =
      .error (.decode reason) := by
  obtain ⟨hshort, hread, hnone, hresponse⟩ := listing_decoded
  have hlatitude : Numeral.Denotes ⟨false, ['9'], some ['5'], none⟩ 9.5 := by
    unfold Numeral.Denotes
    decide +kernel
  have hnull : Says (pricedText "null") (priced .null) := says_priced .nothing
  have hbroken := hnone _ _ hnull broken_priced
  exact ⟨says_sparse, hread _ _ _ says_sparse (writes_sparse ⟨hlatitude, hshort _ (by decide +kernel)⟩),
    hnull, hbroken, (hresponse _ rfl rfl).2 (by rw [Text.ofBytes_utf8, hbroken])⟩

/-- A price of seventeen digits is read as a neighbour. -/
theorem seventeen_digits_misread : ¬ ∀ s tree listing, Says s tree →
    WritesListing Numeral.Denotes listing tree → listingOfJson? s = some listing := by
  intro h
  let n : Numeral := ⟨false, "150".toList, some "35999999999999".toList, none⟩
  have hprice : n.Denotes 150.35999999999999 := by
    unfold Numeral.Denotes
    decide +kernel
  have hn : n.Proper := ⟨by simp [n, Number.Digits], by simp [n], by simp [n], by simp [n, Number.Digits]⟩
  have hspells : Spells (.value (.number n)) "150.35999999999999".toList := .number (.parts hn .none)
  have hsays := says_priced hspells
  have hread := h _ _ _ hsays (writes_priced hprice)
  rw [listingOfJson?, read?_of_says hsays] at hread
  exact absurd hread (by decide +kernel)

end LunchRush
