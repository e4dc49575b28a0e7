import LunchRush.Load.Actor
import LunchRush.Proofs.Random.Real
import LunchRush.Proofs.Time.Seconds
/-!
# Times to think

A time to think is drawn between its bounds in seconds, and floats are not as fine as durations
everywhere. Below 2^23 seconds every time that is drawn lies between the bounds, and up to a few
minutes before 2^64 seconds every draw gives a time, between the bounds as their seconds read back
(`think_within`). Whether all times lie between two bounds is settled by the least and the greatest
word (`thinksWithin_iff`).
-/

namespace LunchRush.Actor

open LunchRush.Number
open LunchRush.Random (Source Span read64)

variable {σ : Type} [Source σ]

/-- What is drawn from a word, between two bounds that differ. -/
structure Thinks (min max : Duration) (span : Span) (low top high : Nat) : Prop where
  low_eq : min.toSeconds = ofSteps false low
  high_eq : max.toSeconds = ofSteps false high
  span_eq : Span.of min.toSeconds max.toSeconds = .ok span
  top_le : top ≤ high
  finite : high < infinitySteps
  high_lt : max.secs < 2 ^ 64 - 2 ^ 10 → high < Duration.topPlace
  least : span.at 0 = ofSteps false low
  greatest : span.at (Nat.pow 2 64 - 1) = ofSteps false top
  placed : ∀ word < Nat.pow 2 64, Number.Placed low top (span.at word)

variable {min max : Duration}

theorem exists_thinks (h : min ≤ max) : ∃ span low top high, Thinks min max span low top high := by
  obtain ⟨_, _, low, hlow, hlowAt⟩ := min.exists_secondsAt
  obtain ⟨_, _, high, hhigh, hhighAt⟩ := max.exists_secondsAt
  have hle := hlowAt.le_of_le hhighAt h
  have htop := hhighAt.place_le
  have hfin := htop.trans_lt Duration.topPlace_lt
  have hvalue : valueAt high ≤ 2 ^ 64 := by
    rw [← valueAt_two_pow 64]
    exact valueAt_mono htop
  obtain ⟨span, top, hspan, htople, hleast, hgreatest, hplaced⟩ :=
    Random.exists_span hle hfin (Random.measured_isFinite hle hvalue hfin)
  refine ⟨span, low, top, high, hlow, hhigh, ?_, htople, hfin, hhighAt.place_lt, hleast, hgreatest,
    hplaced⟩
  rw [hlow, hhigh]
  exact hspan

/-- The answer for the seconds that are drawn. -/
def answer : Option Duration → Except Fault Duration
  | some wait => .ok wait
  | none => .error .noDuration

/-- Between bounds that are equal nothing is drawn. -/
theorem think_of_le (h : max ≤ min) (a : Actor σ) : (a.think min max).1 = .ok min := by
  unfold think drawThinkTime
  rw [if_pos h]
  rfl

theorem think_of_lt {span : Span} (h : ¬ max ≤ min)
    (hspan : Span.of min.toSeconds max.toSeconds = .ok span) (a : Actor σ) :
    (a.think min max).1 = answer (Duration.ofSeconds? (span.at (read64 a.generator).1)) := by
  have hdraw : drawThinkTime min max a.generator =
      .ok (Duration.ofSeconds? (span.at (read64 a.generator).1),
        (Source.next (Source.next a.generator).2).2) := by
    unfold drawThinkTime
    rw [if_neg h, Random.uniform_of_span hspan]
    rfl
  unfold think
  rw [hdraw]
  cases Duration.ofSeconds? (span.at (read64 a.generator).1) <;> rfl

/-- The place of the seconds that are drawn, and the answer for them. -/
theorem Thinks.think {span : Span} {low top high : Nat} (ht : Thinks min max span low top high)
    (h : ¬ max ≤ min) (a : Actor σ) : ∃ place, low ≤ place ∧ place ≤ top ∧
      (a.think min max).1 = answer (Duration.ofSeconds? (ofSteps false place)) := by
  obtain ⟨place, hp, hlow, htop⟩ := ht.placed _ (Random.read64_lt a.generator)
  exact ⟨place, hlow, htop, by rw [think_of_lt h ht.span_eq, hp]⟩

/-! ## All that can be drawn -/

/-- Every time that can be drawn lies between the bounds. -/
def ThinksWithin (min max : Duration) : Prop :=
  ∀ (σ : Type) [Source σ] (a : Actor σ), ∃ wait, (a.think min max).1 = .ok wait ∧ min ≤ wait ∧ wait ≤ max

/-- Seconds between two that are read as durations are read as one between those. -/
theorem exists_between {low place top : Nat} {least greatest : Duration} (hfin : top < infinitySteps)
    (hlow : low ≤ place) (htop : place ≤ top)
    (hleast : Duration.ofSeconds? (ofSteps false low) = some least)
    (hgreatest : Duration.ofSeconds? (ofSteps false top) = some greatest) :
    ∃ wait, answer (Duration.ofSeconds? (ofSteps false place)) = .ok wait ∧
      least ≤ wait ∧ wait ≤ greatest := by
  obtain ⟨wait, hwait⟩ := Duration.ofSeconds?_of_le hfin htop hgreatest
  refine ⟨wait, by rw [hwait]; rfl, ?_, ?_⟩
  · exact Duration.ofSeconds?_le (htop.trans_lt hfin) hlow hleast hwait
  · exact Duration.ofSeconds?_le hfin htop hwait hgreatest

/-- Below 2^23 seconds every time lies between its bounds. -/
theorem thinksWithin_of_short (h : min ≤ max) (hmax : max.secs < 2 ^ 23) : ThinksWithin min max := by
  intro σ _ a
  by_cases heq : max ≤ min
  · exact ⟨min, think_of_le heq a, Nat.le_refl _, h⟩
  · obtain ⟨span, low, top, high, ht⟩ := exists_thinks h
    have hmin := (Duration.secs_le h).trans_lt hmax
    obtain ⟨place, hlow, htop, hthink⟩ := ht.think heq a
    rw [hthink]
    apply exists_between ht.finite hlow (htop.trans ht.top_le)
    · rw [← ht.low_eq, Duration.ofSeconds?_toSeconds hmin]
    · rw [← ht.high_eq, Duration.ofSeconds?_toSeconds hmax]

/-- A time between two bounds as they are read back from seconds, or the bounds themselves if they
are equal. -/
def ReadsWithin (min max wait : Duration) : Prop :=
  wait = min ∧ min = max ∨ ∃ least greatest, Duration.ofSeconds? min.toSeconds = some least ∧
    Duration.ofSeconds? max.toSeconds = some greatest ∧ least ≤ wait ∧ wait ≤ greatest

/-- Before seconds round to 2^64 every draw gives a time. -/
theorem exists_think (h : min ≤ max) (hmax : max.secs < 2 ^ 64 - 2 ^ 10) (a : Actor σ) :
    ∃ wait, (a.think min max).1 = .ok wait ∧ ReadsWithin min max wait := by
  by_cases heq : max ≤ min
  · exact ⟨min, think_of_le heq a, .inl ⟨rfl, Duration.eq_of_nanos (Nat.le_antisymm h heq)⟩⟩
  · obtain ⟨span, low, top, high, ht⟩ := exists_thinks h
    obtain ⟨place, hlow, htop, hthink⟩ := ht.think heq a
    have htop := htop.trans ht.top_le
    obtain ⟨greatest, hgreatest⟩ := Duration.exists_ofSeconds (ht.high_lt hmax)
    obtain ⟨least, hleast⟩ := Duration.ofSeconds?_of_le ht.finite (hlow.trans htop) hgreatest
    obtain ⟨wait, hwait, hle, hge⟩ := exists_between ht.finite hlow htop hleast hgreatest
    rw [← ht.low_eq] at hleast
    rw [← ht.high_eq] at hgreatest
    exact ⟨wait, hthink.trans hwait, .inr ⟨least, greatest, hleast, hgreatest, hle, hge⟩⟩

/-- An actor whose source gives the same word again and again. -/
def constant (word : UInt32) : Actor Random.Stream := ⟨0, fun _ => word, 0⟩

theorem ofSeconds?_of_answer {seconds : Float} {wait : Duration}
    (h : answer (Duration.ofSeconds? seconds) = .ok wait) : Duration.ofSeconds? seconds = some wait := by
  cases hs : Duration.ofSeconds? seconds with
  | none =>
    rw [hs] at h
    cases h
  | some d =>
    rw [hs] at h
    cases h
    rfl

/-- All times lie between two bounds exactly if the least word gives one that is not below the lower
bound, and the greatest word one that is not above the upper bound. -/
theorem thinksWithin_iff (h : min ≤ max) :
    ThinksWithin min max ↔
      (∃ wait, ((constant 0).think min max).1 = .ok wait ∧ min ≤ wait) ∧
      ∃ wait, ((constant (.ofNat (2 ^ 32 - 1))).think min max).1 = .ok wait ∧ wait ≤ max := by
  constructor
  · intro hall
    obtain ⟨least, hleast, hmin, -⟩ := hall Random.Stream (constant 0)
    obtain ⟨greatest, hgreatest, -, hmax⟩ := hall Random.Stream (constant (.ofNat (2 ^ 32 - 1)))
    exact ⟨⟨least, hleast, hmin⟩, greatest, hgreatest, hmax⟩
  · rintro ⟨⟨least, hleast, hmin⟩, greatest, hgreatest, hmax⟩ σ _ a
    by_cases heq : max ≤ min
    · exact ⟨min, think_of_le heq a, Nat.le_refl _, h⟩
    · obtain ⟨span, low, top, high, ht⟩ := exists_thinks h
      rw [think_of_lt heq ht.span_eq, show (read64 (constant 0).generator).1 = 0 by rfl,
        ht.least] at hleast
      rw [think_of_lt heq ht.span_eq,
        show (read64 (constant (.ofNat (2 ^ 32 - 1))).generator).1 = Nat.pow 2 64 - 1 by rfl,
        ht.greatest] at hgreatest
      obtain ⟨place, hlow, htop, hthink⟩ := ht.think heq a
      obtain ⟨wait, hwait, hle, hge⟩ := exists_between (ht.top_le.trans_lt ht.finite) hlow htop
        (ofSeconds?_of_answer hleast) (ofSeconds?_of_answer hgreatest)
      exact ⟨wait, hthink.trans hwait, Nat.le_trans hmin hle, Nat.le_trans hge hmax⟩

/-- Times to think between two bounds in order, whatever the generator draws. Up to 2^23 seconds, 97
days, they lie between the bounds. Unless seconds round to 2^64 every draw gives a time, and rounding
moves it no further than the bounds. Where they are finer than floats a time may miss them, which it
does for some generator exactly if it does for the least or for the greatest word. -/
theorem think_within (min max : Duration) (h : min ≤ max) :
    (max.secs < 2 ^ 23 → ThinksWithin min max) ∧
    (max.secs < 2 ^ 64 - 2 ^ 10 → ∀ (σ : Type) [Source σ] (a : Actor σ),
      ∃ wait, (a.think min max).1 = .ok wait ∧ ReadsWithin min max wait) ∧
    (ThinksWithin min max ↔
      (∃ wait, ((constant 0).think min max).1 = .ok wait ∧ min ≤ wait) ∧
      ∃ wait, ((constant (.ofNat (2 ^ 32 - 1))).think min max).1 = .ok wait ∧ wait ≤ max) := by
  refine ⟨thinksWithin_of_short h, ?_, thinksWithin_iff h⟩
  intro hmax σ _ a
  exact exists_think h hmax a

theorem think_within_seconds :
    (Duration.ofSecs 1 ≤ .ofSecs 2 ∧ (Duration.ofSecs 2).secs < 2 ^ 23) ∧
      ThinksWithin (.ofSecs 1) (.ofSecs 2) ∧
      ∃ wait, ((constant 7).think (.ofSecs 1) (.ofSecs 2)).1 = .ok wait ∧
        ReadsWithin (.ofSecs 1) (.ofSecs 2) wait := by
  have hle : Duration.ofSecs 1 ≤ .ofSecs 2 := by decide
  have hmax : (Duration.ofSecs 2).secs < 2 ^ 23 := by decide
  obtain ⟨hshort, hreads, -⟩ := think_within (.ofSecs 1) (.ofSecs 2) hle
  exact ⟨⟨hle, hmax⟩, hshort hmax, hreads (hmax.trans (by decide)) _ (constant 7)⟩

/-- A nanosecond past 2^24 seconds is no float, and a seeded actor thinks a nanosecond less. A second
before the end of all durations is none either, and nothing can be drawn. -/
theorem think_misses_bounds :
    let a : Actor Random.ChaCha := ⟨0, .ofSeed 7⟩
    let low : Duration := .ofNanos (2 ^ 24 * 10 ^ 9 + 1)
    let high : Duration := .ofNanos (2 ^ 24 * 10 ^ 9 + 2)
    (low ≤ high ∧ (a.think low high).1.toOption = some (.ofSecs (2 ^ 24)) ∧ ¬ low ≤ .ofSecs (2 ^ 24)) ∧
    (Duration.ofSecs (2 ^ 64 - 2) ≤ .ofSecs (2 ^ 64 - 1) ∧
      (a.think (.ofSecs (2 ^ 64 - 2)) (.ofSecs (2 ^ 64 - 1))).1 = .error .noDuration) := by
  exact ⟨⟨by decide, by decide +kernel, by decide⟩, by decide, rfl⟩

end LunchRush.Actor
