import LunchRush.Proofs.Number.Decimals
import LunchRush.Time.Duration
/-!
# Durations in seconds and back

The float of a duration in seconds is rounded three times, and reading seconds back rounds to whole
nanoseconds. Neither changes the order of durations (`SecondsAt.le_of_le`), and below 2^23 seconds a
duration is read back as it was (`ofSeconds?_toSeconds`). Seconds that round to 2^64 are no duration
any more (`exists_ofSeconds`).
-/

namespace LunchRush.Duration

open LunchRush.Number

/-- The place of 2^64, the first whole number that is no number of seconds. -/
def topPlace : Nat := (1023 + 64) * 2 ^ 52

theorem topPlace_lt : topPlace < infinitySteps := by decide

/-- The seconds that come before 2^64. -/
theorem valueAt_le_of_lt {n : Nat} (h : n < topPlace) : valueAt n ≤ 2 ^ 64 - 2 ^ 11 := by
  have hlast : valueAt (topPlace - 1) = 2 ^ 64 - 2 ^ 11 := by
    norm_num [topPlace, valueAt, mantissaAt, doublings, ulp]
  rw [← hlast]
  exact valueAt_mono (by omega)

/-! ## Durations as floats -/

/-- Where a duration stands in seconds: the whole seconds and the fraction are rounded, and so is
their sum. -/
structure SecondsAt (d : Duration) (whole fraction place : Nat) : Prop where
  whole_rounds : Rounds d.secs whole
  fraction_rounds : Rounds (d.subsecNanos / 10 ^ 9) fraction
  place_rounds : Rounds (valueAt whole + valueAt fraction) place

variable {d d' : Duration} {whole fraction place whole' fraction' place' : Nat}

theorem eq_of_nanos (h : d.nanos = d'.nanos) : d = d' := by
  cases d
  cases d'
  cases h
  rfl

theorem nanos_eq (d : Duration) : d.secs * 10 ^ 9 + d.subsecNanos = d.nanos := Nat.div_add_mod' ..

theorem subsecNanos_lt (d : Duration) : d.subsecNanos < 10 ^ 9 := Nat.mod_lt _ (by decide)

theorem secs_le (h : d ≤ d') : d.secs ≤ d'.secs := Nat.div_le_div_right h

namespace SecondsAt

theorem fraction_error (h : SecondsAt d whole fraction place) :
    2 * |valueAt fraction - d.subsecNanos / 10 ^ 9| ≤ 2⁻¹ ^ 53 := by
  have hlt : (d.subsecNanos : ℚ) < 10 ^ 9 := by exact_mod_cast d.subsecNanos_lt
  have hulp : ulp 1021 = 2⁻¹ ^ 53 := by norm_num [ulp]
  have hone : (2 : ℚ) ^ 53 * 2⁻¹ ^ 53 = 1 := by norm_num
  rw [← hulp]
  refine h.fraction_rounds.error ?_
  rw [hulp, hone, div_lt_one (by norm_num)]
  exact hlt

/-- The fraction stays below a second. -/
theorem fraction_lt (h : SecondsAt d whole fraction place) : valueAt fraction < 1 := by
  have hle : (d.subsecNanos : ℚ) + 1 ≤ 10 ^ 9 := by exact_mod_cast d.subsecNanos_lt
  have herror := h.fraction_error
  have habs := le_abs_self (valueAt fraction - d.subsecNanos / 10 ^ 9)
  norm_num at herror
  linarith

theorem whole_exact (h : SecondsAt d whole fraction place) (hs : d.secs ≤ 2 ^ 53) :
    valueAt whole = d.secs :=
  h.whole_rounds.exact hs

theorem le_whole (h : SecondsAt d whole fraction place) {k : Nat} (hk : k ≤ 2 ^ 53)
    (hs : k ≤ d.secs) : (k : ℚ) ≤ valueAt whole := by
  obtain ⟨n, hn⟩ := exists_valueAt_eq hk
  rw [← hn]
  refine valueAt_mono (h.whole_rounds.place_le ?_)
  rw [hn]
  exact_mod_cast hs

/-- From 2^53 seconds on the fraction is lost. -/
theorem place_eq_whole (h : SecondsAt d whole fraction place) (hs : 2 ^ 53 ≤ d.secs) :
    place = whole := by
  have hle := h.le_whole le_rfl hs
  exact h.place_rounds.absorbs (by exact_mod_cast hle) (valueAt_nonneg fraction) h.fraction_lt

/-- Before that the seconds are exact. -/
theorem place_lt_of_short (h : SecondsAt d whole fraction place) (hs : d.secs < 2 ^ 53) :
    place < topPlace := by
  have hle : (d.secs : ℚ) + 1 ≤ 2 ^ 53 := by exact_mod_cast hs
  have hplace : place ≤ (1023 + 53) * 2 ^ 52 := by
    refine h.place_rounds.le_place ?_
    rw [valueAt_two_pow 53, h.whole_exact hs.le]
    linarith [h.fraction_lt]
  exact hplace.trans_lt (by decide)

theorem place_le (h : SecondsAt d whole fraction place) : place ≤ topPlace := by
  rcases Nat.lt_or_ge d.secs (2 ^ 53) with hs | hs
  · exact (h.place_lt_of_short hs).le
  · rw [h.place_eq_whole hs]
    refine h.whole_rounds.le_place ?_
    rw [topPlace, valueAt_two_pow 64]
    exact_mod_cast d.secs_lt.le

/-- Seconds that do not round to 2^64 come before it. -/
theorem place_lt (h : SecondsAt d whole fraction place) (hs : d.secs < 2 ^ 64 - 2 ^ 10) :
    place < topPlace := by
  rcases Nat.lt_or_ge d.secs (2 ^ 53) with hshort | hlong
  · exact h.place_lt_of_short hshort
  · rw [h.place_eq_whole hlong]
    by_contra htop
    have hlt : (d.secs : ℚ) + 2 ^ 10 < 2 ^ 64 := by exact_mod_cast (by omega : d.secs + 2 ^ 10 < 2 ^ 64)
    have hvalue := valueAt_mono (not_lt.1 htop)
    rw [topPlace, valueAt_two_pow 64] at hvalue
    have hulp : ulp 1085 = 2 ^ 11 := by norm_num [ulp]
    have herror := h.whole_rounds.error (show (d.secs : ℚ) < 2 ^ 53 * ulp 1085 by rw [hulp]; linarith)
    have habs := le_abs_self (valueAt whole - d.secs)
    rw [hulp] at herror
    linarith

/-- A longer duration does not come first. -/
theorem le_of_le (h : SecondsAt d whole fraction place) (h' : SecondsAt d' whole' fraction' place')
    (hle : d ≤ d') : place ≤ place' := by
  rcases (secs_le hle).eq_or_lt with hs | hs
  · have hnanos : d.nanos ≤ d'.nanos := hle
    have hsub : d.subsecNanos ≤ d'.subsecNanos := by
      rw [← nanos_eq, ← nanos_eq, hs] at hnanos
      exact Nat.le_of_add_le_add_left hnanos
    have hwhole : whole = whole' := h.whole_rounds.unique (hs ▸ h'.whole_rounds)
    have hfraction : fraction ≤ fraction' := by
      refine h.fraction_rounds.le_of_le h'.fraction_rounds ?_
      gcongr
    refine h.place_rounds.le_of_le h'.place_rounds ?_
    rw [hwhole]
    linarith [valueAt_mono hfraction]
  · rcases Nat.lt_or_ge d.secs (2 ^ 53) with hshort | hlong
    · refine h.place_rounds.le_of_le h'.place_rounds ?_
      have hnext := h'.le_whole hshort hs
      rw [h.whole_exact hshort.le]
      push_cast at hnext
      linarith [h.fraction_lt, valueAt_nonneg fraction']
    · rw [h.place_eq_whole hlong, h'.place_eq_whole (hlong.trans hs.le)]
      exact h.whole_rounds.le_of_le h'.whole_rounds (by exact_mod_cast hs.le)

/-- Below 2^23 seconds the roundings come to less than half a nanosecond together. -/
theorem error_lt (h : SecondsAt d whole fraction place) (hs : d.secs < 2 ^ 23) :
    |valueAt place * 10 ^ 9 - d.nanos| < 1 / 2 := by
  have hle : (d.secs : ℚ) + 1 ≤ 2 ^ 23 := by exact_mod_cast hs
  have hwhole := h.whole_exact (show d.secs ≤ 2 ^ 53 by omega)
  have hnanos : (d.secs * 10 ^ 9 + d.subsecNanos : ℚ) = d.nanos := by exact_mod_cast d.nanos_eq
  have hulp : ulp 1044 = 2⁻¹ ^ 30 := by norm_num [ulp]
  have hsum := h.place_rounds.error (show valueAt whole + valueAt fraction < 2 ^ 53 * ulp 1044 by
    rw [hulp, hwhole]
    norm_num
    norm_num at hle
    linarith [h.fraction_lt])
  have hfraction := h.fraction_error
  rw [hulp, hwhole] at hsum
  norm_num at hsum hfraction
  have h₁ := abs_le.1 (show |valueAt place - (d.secs + valueAt fraction)| ≤ 1 / 2147483648 by linarith)
  have h₂ := abs_le.1 (show |valueAt fraction - d.subsecNanos / 1000000000| ≤ 1 / 18014398509481984 by
    linarith)
  rw [← hnanos, abs_lt]
  constructor <;> linarith

end SecondsAt

/-- The place of the nanoseconds in a second. -/
def billion : Nat := 1052 * 2 ^ 52 + 3885008372629504

theorem billion_spec : (1e9 : Float) = ofSteps false billion ∧ valueAt billion = 10 ^ 9 ∧
    billion < infinitySteps ∧ 0 < billion := by
  refine ⟨by decide +kernel, ?_, by decide, by decide⟩
  norm_num [billion, valueAt, mantissaAt, doublings, ulp]

theorem exists_secondsAt (d : Duration) :
    ∃ whole fraction place, d.toSeconds = ofSteps false place ∧ SecondsAt d whole fraction place := by
  obtain ⟨whole, hwhole, hwr⟩ := toFloat_ofSteps (UInt64.ofNat d.secs)
  obtain ⟨part, hpart, hpr⟩ := toFloat_ofSteps (UInt64.ofNat d.subsecNanos)
  have hsub : d.subsecNanos ≤ 2 ^ 53 := d.subsecNanos_lt.le.trans (by decide)
  have hsecs : (d.secs : ℚ) < 2 ^ 64 := by exact_mod_cast d.secs_lt
  rw [UInt64.toNat_ofNat_of_lt' d.secs_lt] at hwr
  rw [UInt64.toNat_ofNat_of_lt' (hsub.trans_lt (by decide))] at hpr
  obtain ⟨hbillion, hvalue, hbfin, hbpos⟩ := billion_spec
  have hpfin : part < infinitySteps := by
    refine (hpr.le_place (k := billion) ?_).trans_lt hbfin
    rw [hvalue]
    exact_mod_cast d.subsecNanos_lt.le
  obtain ⟨fraction, hf, hfr⟩ := div_ofSteps hpfin hbfin hbpos
  rw [hpr.exact hsub, hvalue] at hfr
  have hwfin : whole < infinitySteps := by
    refine lt_of_le_of_lt (hwr.le_place ?_) topPlace_lt
    rw [topPlace, valueAt_two_pow 64]
    exact hsecs.le
  have hffin : fraction < infinitySteps := by
    refine lt_of_le_of_lt (hfr.le_place ?_) topPlace_lt
    have hlt : (d.subsecNanos : ℚ) < 10 ^ 9 := by exact_mod_cast d.subsecNanos_lt
    rw [topPlace, valueAt_two_pow 64, div_le_iff₀ (by norm_num)]
    linarith
  obtain ⟨place, hp, hr⟩ := add_ofSteps hwfin hffin
  refine ⟨whole, fraction, place, ?_, hwr, hfr, hr⟩
  rw [toSeconds, hwhole, hpart, hbillion, hf, hp]

/-! ## Floats as durations -/

/-- Seconds are read as the nearest whole number of nanoseconds, if there are so many. -/
theorem ofSeconds?_ofSteps {n : Nat} (h : n < infinitySteps) :
    ∃ nanos : Nat, HalfEven (valueAt n * 10 ^ 9) nanos ∧
      ofSeconds? (ofSteps false n) = if h : nanos ≤ maxNanos then some ⟨nanos, h⟩ else none := by
  obtain ⟨hpos, hratio⟩ := ratio_valueAt n
  let b : Binary := ⟨false, mantissaAt n, (doublings n : Int) - 1074⟩
  have hhalf := roundDiv_halfEven (b.ratio.1 * Nat.pow 10 9) hpos
  refine ⟨roundDiv (b.ratio.1 * Nat.pow 10 9) b.ratio.2 .toEven, ?_, ?_⟩
  · convert hhalf using 1
    rw [← hratio]
    push_cast
    ring
  · unfold ofSeconds?
    rw [ofFloat?_ofSteps h]
    simp only [Bool.false_and, Bool.false_eq_true, if_false, b]

/-- Seconds below 2^64 are a duration. -/
theorem exists_ofSeconds {n : Nat} (h : n < topPlace) :
    ∃ d, ofSeconds? (ofSteps false n) = some d := by
  obtain ⟨nanos, hhalf, hread⟩ := ofSeconds?_ofSteps (h.trans topPlace_lt)
  have hle : nanos ≤ (2 ^ 64 - 2 ^ 11) * 10 ^ 9 := by
    refine hhalf.le_natCast ?_
    have := valueAt_le_of_lt h
    push_cast
    linarith
  have hmax : nanos ≤ maxNanos := hle.trans (by decide)
  exact ⟨_, by rw [hread, dif_pos hmax]⟩

theorem halfEven_of_ofSeconds {n : Nat} (hn : n < infinitySteps)
    (h : ofSeconds? (ofSteps false n) = some d) : HalfEven (valueAt n * 10 ^ 9) d.nanos := by
  obtain ⟨nanos, hhalf, hread⟩ := ofSeconds?_ofSteps hn
  rw [hread] at h
  split at h
  · cases h
    exact hhalf
  · cases h

/-- More seconds are no shorter. -/
theorem ofSeconds?_le {n k : Nat} (hk : k < infinitySteps) (h : n ≤ k)
    (hd : ofSeconds? (ofSteps false n) = some d) (hd' : ofSeconds? (ofSteps false k) = some d') :
    d ≤ d' := by
  refine (halfEven_of_ofSeconds (h.trans_lt hk) hd).le_of_le (halfEven_of_ofSeconds hk hd') ?_
  exact mul_le_mul_of_nonneg_right (valueAt_mono h) (by norm_num)

/-- Fewer seconds than those of a duration are a duration too. -/
theorem ofSeconds?_of_le {n k : Nat} (hk : k < infinitySteps) (h : n ≤ k)
    (hd : ofSeconds? (ofSteps false k) = some d) : ∃ d', ofSeconds? (ofSteps false n) = some d' := by
  obtain ⟨nanos, hhalf, hread⟩ := ofSeconds?_ofSteps (h.trans_lt hk)
  have hle : nanos ≤ d.nanos := by
    refine hhalf.le_of_le (halfEven_of_ofSeconds hk hd) ?_
    exact mul_le_mul_of_nonneg_right (valueAt_mono h) (by norm_num)
  exact ⟨_, by rw [hread, dif_pos (hle.trans d.bounded)]⟩

/-- Below 2^23 seconds a duration is read back. -/
theorem ofSeconds?_toSeconds (hs : d.secs < 2 ^ 23) : ofSeconds? d.toSeconds = some d := by
  obtain ⟨whole, fraction, place, hd, hat⟩ := exists_secondsAt d
  have hlt := hat.place_lt (show d.secs < 2 ^ 64 - 2 ^ 10 by omega)
  obtain ⟨d', hread⟩ := exists_ofSeconds hlt
  have hhalf := halfEven_of_ofSeconds (hlt.trans topPlace_lt) hread
  have herror := abs_lt.1 (hat.error_lt hs)
  -- both lie within half a nanosecond of the seconds
  have hnear : |(d'.nanos : ℚ) - d.nanos| < 1 := by
    rw [abs_lt]
    constructor <;> linarith [hhalf.low, hhalf.high]
  have heq : d' = d := by
    have hint : |(d'.nanos : Int) - d.nanos| < 1 := by exact_mod_cast hnear
    have hnanos : d'.nanos = d.nanos := by
      rw [Int.abs_lt_one_iff] at hint
      omega
    exact eq_of_nanos hnanos
  rw [hd, hread, heq]

end LunchRush.Duration
