import LunchRush.Proofs.Fixture
import LunchRush.Proofs.Number.Places
import LunchRush.Registration
import Mathlib
/-!
# Accepted registrations

What the rules of a registration are good for: its menu is not empty, and an item with the price of
one of its entries keeps the rules of a listed item (`Registration.Accepted.check`).
-/

namespace LunchRush

open Float.Model (UnpackedFloat)
open Number (le_iff_unpack lt_iff_unpack)

/-- Both bounds of a price are finite and positive, and so is all that lies between them. -/
theorem Bounds.price_of_within {x : Float} (h : within priceMin priceMax x = true) :
    x.isFinite = true ∧ ¬ x < 0 := by
  obtain ⟨hl, hh⟩ : priceMin ≤ x ∧ x ≤ priceMax := by simpa [within] using h
  rw [le_iff_unpack] at hl hh
  obtain ⟨_, _, _, hlow⟩ : ∃ m e h, priceMin.toModel.unpack = .finite .positive m e h := ⟨_, _, _, rfl⟩
  obtain ⟨_, _, _, hhigh⟩ : ∃ m e h, priceMax.toModel.unpack = .finite .positive m e h := ⟨_, _, _, rfl⟩
  have hzero : (0 : Float).toModel.unpack = .zero .positive := rfl
  rw [hlow] at hl
  rw [hhigh] at hh
  rw [lt_iff_unpack, hzero]
  show x.toModel.unpack.isFinite = true ∧ _
  generalize x.toModel.unpack = u at hl hh ⊢
  cases u with
  | infinity s => cases s <;> simp [UnpackedFloat.le, UnpackedFloat.compare] at hl hh
  | notANumber => simp [UnpackedFloat.le, UnpackedFloat.compare] at hl
  | zero s => simp [UnpackedFloat.le, UnpackedFloat.compare] at hl
  | finite s m e h =>
    cases s with
    | negative => simp [UnpackedFloat.le, UnpackedFloat.compare] at hl
    | positive => simp [UnpackedFloat.isFinite, UnpackedFloat.lt, UnpackedFloat.compare]

theorem MenuTemplate.within_of_new {name description : String} {price : Float} {t : MenuTemplate}
    (h : MenuTemplate.new name description price = .ok t) :
    Bounds.within Bounds.priceMin Bounds.priceMax price = true := by
  unfold MenuTemplate.new at h
  split at h
  · cases h
  · split at h
    · cases h
    · simp_all

namespace Registration

/-- A registration that keeps its rules, with a menu whose entries keep theirs. -/
structure Accepted (r : Registration) : Prop where
  made : Registration.new r.name r.email r.secretKey r.latitude r.longitude r.menus = .ok r
  entries : ∀ t ∈ r.menus, MenuTemplate.new t.name t.description t.price = .ok t

theorem Accepted.menu_ne_nil {r : Registration} (h : r.Accepted) : r.menus ≠ [] := by
  intro hnil
  have hm := h.made
  unfold Registration.new at hm
  iterate 5 (split at hm; · cases hm)
  simp [hnil, Bounds.menuMin] at hm

/-- An item that has an identifier and the price of an entry keeps the rules. -/
theorem Accepted.check {r : Registration} (h : r.Accepted) {t : MenuTemplate} (ht : t ∈ r.menus)
    {item : MenuItem} (hid : item.itemId.isBlank = false) (hp : item.price = t.price) :
    item.check = .ok () := by
  obtain ⟨hf, hn⟩ := Bounds.price_of_within (MenuTemplate.within_of_new (h.entries t ht))
  simp [MenuItem.check, hid, hp, hf, hn]

end Registration

end LunchRush
