import LunchRush.Proofs.Random.Coverage
import Mathlib.Probability.BorelCantelli
import Mathlib.Probability.ProductMeasure
import Mathlib.Probability.UniformOn
/-!
# Draws by chance

A draw goes on for ever only along a stream in which no pair of words from some place on is zero
(`PassesOver.exists_place`). Independent words, each as likely as any other, make such a stream with probability
zero: by the second lemma of Borel and Cantelli zeros come again and again (`almost_never_passesOver`). So what
a draw yields it yields almost surely (`Yields.almost_surely`).
-/

namespace LunchRush.Random

open MeasureTheory ProbabilityTheory Filter

/-! ## Pairs of zeros -/

/-- The pair of words at a place of a stream is zero. -/
def ZeroPair (words : ℕ → UInt32) (place : ℕ) : Prop := words place = 0 ∧ words (place + 1) = 0

/-- Zero counts for every range. -/
theorem counts_zero (bits zone n : Nat) : counts bits zone n 0 = true := by
  simp [counts]

theorem read32_of_zeroPair {words : ℕ → UInt32} {position n : ℕ} (h : ZeroPair words (position + n)) :
    (read32 (after n (⟨words, position⟩ : Stream))).1 = 0 := by
  rw [Stream.after_eq]
  show (words (position + n)).toNat = 0
  rw [h.1]
  rfl

theorem read64_of_zeroPair {words : ℕ → UInt32} {position n : ℕ} (h : ZeroPair words (position + n)) :
    (read64 (after n (⟨words, position⟩ : Stream))).1 = 0 := by
  rw [Stream.after_eq]
  show (words (position + n)).toNat + Nat.pow 2 32 * (words (position + n + 1)).toNat = 0
  rw [h.1, h.2]
  rfl

/-- A range for which every number is passed over is never met by a pair of zeros. -/
theorem PassesOver.exists_place {words : ℕ → UInt32} {position : ℕ}
    (h : PassesOver (⟨words, position⟩ : Stream)) :
    ∃ place, ∀ k, ¬ ZeroPair words (place + 2 * k) := by
  have hcounts : ∀ {bits zone n v : Nat}, v = 0 → counts bits zone n v ≠ false := by
    rintro bits zone n v rfl
    rw [counts_zero]
    exact Bool.noConfusion
  cases h with
  | narrow size passed h =>
    refine ⟨position + passed, fun k hk => ?_⟩
    rw [Nat.add_assoc] at hk
    exact hcounts (read32_of_zeroPair hk) (h (2 * k))
  | wide size passed h =>
    refine ⟨position + passed, fun k hk => ?_⟩
    rw [Nat.add_assoc] at hk
    exact hcounts (read64_of_zeroPair hk) (h k)
  | short size passed h =>
    refine ⟨position + passed, fun k hk => ?_⟩
    rw [Nat.add_assoc] at hk
    exact hcounts (read32_of_zeroPair hk) (h (2 * k))

theorem not_passesOver_of_zeros {words : ℕ → UInt32} (h : ∀ place, words place = 0) (position : ℕ) :
    ¬ PassesOver (⟨words, position⟩ : Stream) := by
  intro hpasses
  obtain ⟨place, hplace⟩ := hpasses.exists_place
  exact hplace 0 ⟨h _, h _⟩

/-! ## Independent words -/

instance measurableSpace_word : MeasurableSpace UInt32 := ⊤

instance measurableSingletonClass_word : MeasurableSingletonClass UInt32 := ⟨fun _ => trivial⟩

instance finite_word : Finite UInt32 :=
  Finite.of_injective (fun w : UInt32 => w.toFin) fun _ _ h => UInt32.toFin_inj.1 h

/-- A word, each as likely as any other. -/
noncomputable def anyWord : Measure UInt32 := uniformOn Set.univ

instance : IsProbabilityMeasure anyWord := instIsProbabilityMeasure_uniformOn_univ

/-- The words of a stream, each drawn for itself. -/
noncomputable def chance : Measure (ℕ → UInt32) := Measure.infinitePi fun _ => anyWord

instance : IsProbabilityMeasure chance :=
  inferInstanceAs (IsProbabilityMeasure (Measure.infinitePi fun _ => anyWord))

theorem anyWord_zero : anyWord {0} ≠ 0 := by
  rw [anyWord, Ne, uniformOn_eq_zero_iff Set.finite_univ]
  simp

/-- Zeros at some places are as likely as one zero to the power of their number. -/
theorem chance_zeros (places : Finset ℕ) :
    chance {words | ∀ place ∈ places, words place = 0} = anyWord {0} ^ places.card := by
  have hbox : {words : ℕ → UInt32 | ∀ place ∈ places, words place = 0} =
      Set.pi places fun _ => {(0 : UInt32)} := rfl
  rw [hbox, chance, Measure.infinitePi_pi _ fun _ _ => measurableSet_singleton _, Finset.prod_const]

theorem chance_zeroPairs (place : ℕ) (pairs : Finset ℕ) :
    chance {words | ∀ k ∈ pairs, ZeroPair words (place + 2 * k)} = (anyWord {0} ^ 2) ^ pairs.card := by
  have hplaces : {words : ℕ → UInt32 | ∀ k ∈ pairs, ZeroPair words (place + 2 * k)} =
      {words | ∀ i ∈ pairs.biUnion fun k => {place + 2 * k, place + 2 * k + 1}, words i = 0} := by
    ext words
    simp only [ZeroPair, Set.mem_ofPred_eq, Finset.mem_biUnion, Finset.mem_insert, Finset.mem_singleton]
    constructor
    · rintro h i ⟨k, hk, rfl | rfl⟩
      · exact (h k hk).1
      · exact (h k hk).2
    · exact fun h k hk => ⟨h _ ⟨k, hk, .inl rfl⟩, h _ ⟨k, hk, .inr rfl⟩⟩
  rw [hplaces, chance_zeros, Finset.card_biUnion, ← pow_mul]
  · simp [mul_comm]
  · intro k _ k' _ hne
    simp only [Finset.disjoint_left, Finset.mem_insert, Finset.mem_singleton]
    omega

theorem chance_zeroPair (place : ℕ) : chance {words | ZeroPair words place} = anyWord {0} ^ 2 := by
  simpa using chance_zeroPairs place {0}

theorem zeroPair_measurable (place : ℕ) : MeasurableSet {words | ZeroPair words place} := by
  have hzero : ∀ place : ℕ, MeasurableSet {words : ℕ → UInt32 | words place = 0} := fun place =>
    measurable_pi_apply place (measurableSet_singleton 0)
  exact (hzero place).inter (hzero (place + 1))

theorem zeroPairs_independent (place : ℕ) :
    iIndepSet (fun k => {words | ZeroPair words (place + 2 * k)}) chance := by
  rw [iIndepSet_iff_meas_biInter fun k => zeroPair_measurable _]
  intro pairs
  have hall : ⋂ k ∈ pairs, {words | ZeroPair words (place + 2 * k)} =
      {words | ∀ k ∈ pairs, ZeroPair words (place + 2 * k)} := by
    ext words
    simp
  rw [hall, chance_zeroPairs, Finset.prod_congr rfl fun k _ => chance_zeroPair (place + 2 * k), Finset.prod_const]

/-- From every place on a pair of zeros comes almost surely. -/
theorem almost_surely_zeroPair (place : ℕ) :
    ∀ᵐ words ∂chance, ∃ k, ZeroPair words (place + 2 * k) := by
  have hmeasurable : ∀ k, MeasurableSet {words | ZeroPair words (place + 2 * k)} :=
    fun k => zeroPair_measurable _
  have hsum : tsum (fun k => chance {words | ZeroPair words (place + 2 * k)}) = ⊤ := by
    rw [tsum_congr fun k => chance_zeroPair (place + 2 * k)]
    exact ENNReal.tsum_const_eq_top_of_ne_zero (pow_ne_zero 2 anyWord_zero)
  have hlimsup := measure_limsup_eq_one hmeasurable (zeroPairs_independent place) hsum
  have hagain := (mem_ae_iff_prob_eq_one (MeasurableSet.measurableSet_limsup hmeasurable)).2 hlimsup
  filter_upwards [hagain] with words hwords
  obtain ⟨k, hk⟩ := (mem_limsup_iff_frequently_mem.1 hwords).exists
  exact ⟨k, hk⟩

/-- Almost surely no draw goes on for ever. -/
theorem almost_never_passesOver (position : ℕ) :
    ∀ᵐ words ∂chance, ¬ PassesOver (⟨words, position⟩ : Stream) := by
  have hpairs := ae_all_iff.2 almost_surely_zeroPair
  filter_upwards [hpairs] with words hwords hpasses
  obtain ⟨place, hplace⟩ := hpasses.exists_place
  obtain ⟨k, hk⟩ := hwords place
  exact hplace k hk

theorem Yields.almost_surely {α : Type} {draw : Draw Stream α} {P : α → Prop} (h : Yields draw P)
    (position : ℕ) : ∀ᵐ words ∂chance, ∃ a rest, draw ⟨words, position⟩ = .ok (a, rest) ∧ P a := by
  filter_upwards [almost_never_passesOver position] with words hwords
  obtain ⟨a, taken, hdraw, ha⟩ | ⟨-, hpasses⟩ := h ⟨words, position⟩
  · exact ⟨a, _, hdraw, ha⟩
  · exact absurd hpasses hwords

end LunchRush.Random
