import LunchRush.Proofs.Generate.Words
import LunchRush.Proofs.Random.Chance
import LunchRush.Proofs.Random.Real
import LunchRush.Proofs.Registration
/-!
# Drawn registrations

Coordinates and prices are drawn between bounds that have no more decimals than they are rounded to,
so rounding cannot take them out of the bounds. With that no rule of a registration can be broken by
what is drawn, and no word of the source leads to a fault (`registration_yields`).
-/

namespace LunchRush.Generate

open LunchRush.Number LunchRush.Random

variable {σ : Type} [Source σ]

/-! ## Bounds -/

/-- Two bounds with no more decimals than what is drawn between them is rounded to. -/
structure Aligned (decimals : Int) (low high : Float) (factor lowest highest : Nat) : Prop where
  low_eq : low = ofSteps false lowest
  high_eq : high = ofSteps false highest
  le : lowest ≤ highest
  measured : ((high - low) / lastFraction).isFinite = true
  scales : Scales decimals factor highest
  low_rounded : roundTo low decimals = low
  high_rounded : roundTo high decimals = high

variable {decimals : Int} {low high : Float} {factor lowest highest : Nat}

theorem Aligned.uniform_yields (h : Aligned decimals low high factor lowest highest) :
    Yields (uniform low high : Draw σ Float) (Placed lowest highest) := by
  have hfin := h.measured
  rw [h.low_eq, h.high_eq] at hfin ⊢
  exact Random.uniform_yields h.le h.scales.finite hfin

theorem Aligned.within (h : Aligned decimals low high factor lowest highest) {x : Float}
    (hx : Placed lowest highest x) : Bounds.within low high (roundTo x decimals) = true := by
  have hl := h.low_rounded
  have hh := h.high_rounded
  rw [h.low_eq] at hl ⊢
  rw [h.high_eq] at hh ⊢
  exact within_roundTo h.scales hx hl hh

theorem within_iff {x : Float} : Bounds.within low high x = true ↔ low ≤ x ∧ x ≤ high := by
  simp [Bounds.within]

theorem latitude_aligned : Aligned Bounds.coordinateDecimals Bounds.latitudeMin Bounds.latitudeMax
    4696837146684686336 4621256167635550208 4621312462630892339 := by
  constructor
  case scales => constructor <;> decide +kernel
  all_goals decide +kernel

theorem longitude_aligned : Aligned Bounds.coordinateDecimals Bounds.longitudeMin Bounds.longitudeMax
    4696837146684686336 4630643358108850586 4630657431857686118 := by
  constructor
  case scales => constructor <;> decide +kernel
  all_goals decide +kernel

theorem price_aligned : Aligned Bounds.priceDecimals Bounds.priceMin Bounds.priceMax
    4636737291354636288 4632233691727265792 4647503709213818880 := by
  constructor
  case scales => constructor <;> decide +kernel
  all_goals decide +kernel

/-- Prices in cents have last bits of at most `2 ^ -44`, and cents of at most `2 ^ -37`. -/
theorem price_separates : Separates 4636737291354636288 50000 1030 1037 := by
  have hfactor : valueAt 4636737291354636288 = 100 := by
    norm_num [valueAt, mantissaAt, doublings, ulp]
  constructor
  case quotient => rw [hfactor]; norm_num [ulp]
  case product => rw [hfactor]; norm_num [ulp]
  case small => rw [hfactor]; norm_num [ulp]
  all_goals decide

theorem price_fine {x : Float} (hx : Placed 4632233691727265792 4647503709213818880 x) :
    hasDecimals (roundTo x Bounds.priceDecimals) Bounds.priceDecimals = true :=
  hasDecimals_roundTo price_aligned.scales price_separates
    (by norm_num [valueAt, mantissaAt, doublings, ulp]) hx

/-! ## Entries of a menu -/

theorem isBlank_append (s t : String) : Text.isBlank (s ++ t) = (Text.isBlank s && Text.isBlank t) := by
  simp [Text.isBlank, String.toList_append]

/-- What is drawn for a menu: a dish that costs whole cents within the bounds. -/
structure DrawnEntry (t : MenuTemplate) : Prop where
  made : MenuTemplate.new t.name t.description t.price = .ok t
  price : 50.0 ≤ t.price ∧ t.price ≤ 500.0
  cents : hasDecimals t.price 2 = true
  name : Text.isBlank t.name = false ∧ ∃ dish, t.name = dish ++ " Special"
  description : ∃ words, 4 ≤ words.length ∧ words.length ≤ 9 ∧ IsSentence t.description words

theorem menuTemplate_yields : Yields (menuTemplate : Draw σ MenuTemplate) DrawnEntry := by
  refine (pick_yields (by decide)).bind fun word _ => sentence_yields.bind fun description hd =>
    price_aligned.uniform_yields.bind fun price hp => ?_
  have hname : Text.isBlank (capitalized word ++ " Special") = false := by
    rw [isBlank_append, show Text.isBlank " Special" = false by decide, Bool.and_false]
  have hwithin := price_aligned.within hp
  have hmade : MenuTemplate.new (capitalized word ++ " Special") description
      (roundTo price Bounds.priceDecimals) =
        .ok ⟨capitalized word ++ " Special", description, roundTo price Bounds.priceDecimals⟩ := by
    simp [MenuTemplate.new, hname, hwithin, price_fine hp]
  rw [hmade]
  exact .pure ⟨hmade, within_iff.1 hwithin, price_fine hp, ⟨hname, _, rfl⟩, hd⟩

/-! ## Registrations -/

/-- What is drawn for a registration: a kitchen inside the city with five to ten entries. -/
structure DrawnRegistration (r : Registration) : Prop where
  made : Registration.new r.name r.email r.secretKey r.latitude r.longitude r.menus = .ok r
  latitude : 9.0 ≤ r.latitude ∧ r.latitude ≤ 9.1
  longitude : 38.7 ≤ r.longitude ∧ r.longitude ≤ 38.8
  size : 5 ≤ r.menus.length ∧ r.menus.length ≤ 10
  entries : ∀ t ∈ r.menus, DrawnEntry t
  name : Text.isBlank r.name = false ∧ ∃ company, r.name = company ++ " Kitchen"
  email : isAddress r.email = true
  secretKey : isSecretKey r.secretKey = true

theorem company_yields : Yields (company : Draw σ String) fun _ => True := by
  refine (lessThan32_yields (by decide)).bind fun kind _ => (pick_yields (by decide)).bind fun first _ => ?_
  split
  · exact (pick_yields (by decide)).bind fun _ _ => .pure trivial
  · refine (pick_yields (by decide)).bind fun second _ => ?_
    split
    · exact .pure trivial
    · exact (pick_yields (by decide)).bind fun _ _ => .pure trivial

theorem registration_yields : Yields (registration : Draw σ Registration) DrawnRegistration := by
  refine company_yields.bind fun company _ => address_yields.bind fun email he =>
    secretKey_yields.bind fun key hk => latitude_aligned.uniform_yields.bind fun latitude hlat =>
    longitude_aligned.uniform_yields.bind fun longitude hlong =>
    (between64_yields (by decide)).bind fun count hc =>
    (times_yields menuTemplate_yields count).bind fun menus hm => ?_
  obtain ⟨hlen, hentries⟩ := hm
  have hname : Text.isBlank (company ++ " Kitchen") = false := by
    rw [isBlank_append, show Text.isBlank " Kitchen" = false by decide, Bool.and_false]
  have hlat := latitude_aligned.within hlat
  have hlong := longitude_aligned.within hlong
  have hsize : Bounds.menuMin ≤ menus.length ∧ menus.length ≤ Bounds.menuMax := hlen.symm ▸ hc
  have hmade : Registration.new (company ++ " Kitchen") email key
      (roundTo latitude Bounds.coordinateDecimals) (roundTo longitude Bounds.coordinateDecimals) menus =
        .ok ⟨company ++ " Kitchen", email, key, roundTo latitude Bounds.coordinateDecimals,
          roundTo longitude Bounds.coordinateDecimals, menus⟩ := by
    simp [Registration.new, hname, he, hk, hlat, hlong, hsize]
  rw [hmade]
  exact .pure ⟨hmade, within_iff.1 hlat, within_iff.1 hlong, hsize, hentries, ⟨hname, _, rfl⟩, he, hk⟩

end LunchRush.Generate
