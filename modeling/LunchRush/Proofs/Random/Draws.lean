import LunchRush.Random.Sample
import Mathlib.Data.Nat.Find
/-!
# What draws yield

A draw of a whole number takes the first number that counts, and it goes on for ever exactly where every
number is passed over (`multiplied_cases`). So from every state of a source it meets no other fault and stays
in its range (`index_yields`, `between32_yields`, `between64_yields`), and a sample is a choice of distinct
positions (`sample_yields`).
-/

namespace LunchRush.Random

/-! ## The number that is taken -/

section Search

variable {σ : Type} {read : σ → Nat × σ} {counts : Nat → Bool}

/-- The source after some numbers were read. -/
def behind (read : σ → Nat × σ) : Nat → σ → σ
  | 0, s => s
  | k + 1, s => behind read k (read s).2

/-- The number that is read after some others. -/
def nth (read : σ → Nat × σ) (s : σ) (k : Nat) : Nat := (read (behind read k s)).1

theorem behind_behind (m n : Nat) (s : σ) :
    behind read n (behind read m s) = behind read (m + n) s := by
  induction m generalizing s with
  | zero => rw [Nat.zero_add]; rfl
  | succ m ih => rw [Nat.succ_add]; exact ih _

theorem search_of_counts {s : σ} (h : counts (read s).1 = true) : search read counts s = some (read s) := by
  rw [search, if_pos h]

theorem search_of_passed {s : σ} (h : counts (read s).1 = false) :
    search read counts s = search read counts (read s).2 := by
  rw [search, if_neg (by simp [h])]

/-- What is found among the next numbers is found by the search without end. -/
theorem firstCounting_eq_search (s : σ) : firstCounting read counts s = search read counts s := by
  -- only what is found has to agree: where nothing is, the search without end comes next anyway
  have hfound : ∀ (tries : Nat) (s : σ) (taken : Nat × σ), searchAmong read counts tries s = some taken →
      search read counts s = some taken := by
    intro tries
    induction tries with
    | zero => exact nofun
    | succ tries ih =>
      intro s taken h
      unfold searchAmong at h
      split at h
      · rename_i hcounts
        rw [search_of_counts hcounts]
        exact h
      · rename_i hpassed
        rw [search_of_passed (by simpa using hpassed)]
        exact ih _ _ h
  unfold firstCounting
  cases h : searchAmong read counts 64 s with
  | none => rfl
  | some taken => exact (hfound _ _ _ h).symm

/-- Numbers are passed over up to the first one that counts, which is taken. -/
theorem firstCounting_first (k : Nat) (s : σ) (hpassed : ∀ j < k, counts (nth read s j) = false)
    (hcounts : counts (nth read s k) = true) :
    firstCounting read counts s = some (nth read s k, behind read (k + 1) s) := by
  rw [firstCounting_eq_search]
  induction k generalizing s with
  | zero => exact search_of_counts hcounts
  | succ k ih =>
    have hfirst : counts (read s).1 = false := hpassed 0 (Nat.succ_pos k)
    rw [search_of_passed hfirst]
    exact ih (read s).2 (fun j hj => hpassed (j + 1) (Nat.succ_lt_succ hj)) hcounts

/-- A number is found only where some number counts. -/
theorem exists_counts_of_found {s : σ} {taken : Nat × σ} (h : search read counts s = some taken) :
    ∃ k, counts (nth read s k) = true := by
  refine search.partial_correctness read counts (fun s _ => ∃ k, counts (nth read s k) = true) ?_ s taken h
  intro later ih s taken hs
  by_cases hcounts : counts (read s).1 = true
  · exact ⟨0, hcounts⟩
  · rw [if_neg hcounts] at hs
    obtain ⟨k, hk⟩ := ih (read s).2 taken hs
    exact ⟨k + 1, hk⟩

theorem firstCounting_eq_none {s : σ} (h : ∀ k, counts (nth read s k) = false) :
    firstCounting read counts s = none := by
  rw [firstCounting_eq_search]
  cases hs : search read counts s with
  | none => rfl
  | some taken =>
    obtain ⟨k, hk⟩ := exists_counts_of_found hs
    rw [h k] at hk
    cases hk

end Search

/-- A number that is drawn stands in the range for the first one that counts; where none counts the draw never
ends. -/
theorem multiplied_cases {σ : Type} (read : σ → Nat × σ) (bits zone n : Nat) (s : σ) :
    (∃ k, (∀ j < k, counts bits zone n (nth read s j) = false) ∧ counts bits zone n (nth read s k) = true ∧
      multiplied read bits zone n s = .ok (nth read s k * n / Nat.pow 2 bits, behind read (k + 1) s)) ∨
    (∀ k, counts bits zone n (nth read s k) = false) ∧ multiplied read bits zone n s = .error .endless := by
  by_cases h : ∃ k, counts bits zone n (nth read s k) = true
  · have hpassed : ∀ j < Nat.find h, counts bits zone n (nth read s j) = false := fun j hj => by
      simpa using Nat.find_min h hj
    refine .inl ⟨Nat.find h, hpassed, Nat.find_spec h, ?_⟩
    rw [multiplied, firstCounting_first _ s hpassed (Nat.find_spec h)]
  · have hnone : ∀ k, counts bits zone n (nth read s k) = false := by simpa using h
    refine .inr ⟨hnone, ?_⟩
    rw [multiplied, firstCounting_eq_none hnone]

/-! ## Words -/

section Words

variable {σ : Type} [Source σ]

/-- The source after some words. -/
def after : Nat → σ → σ := behind read32

theorem after_after (m n : Nat) (s : σ) : after n (after m s) = after (m + n) s := behind_behind m n s

theorem behind_read64 (k : Nat) : ∀ s : σ, behind read64 k s = after (2 * k) s := by
  induction k with
  | zero => intro s; rfl
  | succ k ih => intro s; exact ih _

theorem read32_lt (s : σ) : (read32 s).1 < Nat.pow 2 32 := (Source.next s).1.toNat_lt

theorem read64_lt (s : σ) : (read64 s).1 < Nat.pow 2 64 := by
  have hlow := read32_lt s
  have hhigh := read32_lt (read32 s).2
  simp only [read64, Nat.pow_eq] at *
  omega

/-- From some place on, every number is passed over for a range of some size: of the numbers that one word
makes or two words make, or of those for ranges of 16 bits. -/
inductive PassesOver (s : σ) : Prop where
  | narrow (size passed : Nat)
      (h : ∀ k, counts 32 (shiftedZone 32 size) size (read32 (after (passed + k) s)).1 = false)
  | wide (size passed : Nat)
      (h : ∀ k, counts 64 (shiftedZone 64 size) size (read64 (after (passed + 2 * k) s)).1 = false)
  | short (size passed : Nat)
      (h : ∀ k, counts 32 (multipleZone size) size (read32 (after (passed + k) s)).1 = false)

theorem PassesOver.of_after {s : σ} {n : Nat} (h : PassesOver (after n s)) : PassesOver s := by
  cases h with
  | narrow size passed h =>
    refine .narrow size (n + passed) fun k => ?_
    rw [Nat.add_assoc, ← after_after]
    exact h k
  | wide size passed h =>
    refine .wide size (n + passed) fun k => ?_
    rw [Nat.add_assoc, ← after_after]
    exact h k
  | short size passed h =>
    refine .short size (n + passed) fun k => ?_
    rw [Nat.add_assoc, ← after_after]
    exact h k

end Words

/-! ## Draws that end or pass over all words -/

section Yields

variable {σ α β : Type} [Source σ]

/-- From every state of the source the draw takes some words and brings a value with the property, or it goes
on for ever, which it does only where every word is passed over from some place on. No other fault occurs. -/
def Yields (draw : Draw σ α) (P : α → Prop) : Prop :=
  ∀ s, (∃ a taken, draw s = .ok (a, after taken s) ∧ P a) ∨ draw s = .error .endless ∧ PassesOver s

theorem Yields.pure {P : α → Prop} {a : α} (h : P a) : Yields (pure a : Draw σ α) P :=
  fun _ => .inl ⟨a, 0, rfl, h⟩

theorem Yields.bind {draw : Draw σ α} {next : α → Draw σ β} {P : α → Prop} {Q : β → Prop}
    (h : Yields draw P) (hn : ∀ a, P a → Yields (next a) Q) : Yields (draw >>= next) Q := by
  intro s
  show (∃ b taken, (draw s >>= fun p => next p.1 p.2) = .ok (b, after taken s) ∧ Q b) ∨
    (draw s >>= fun p => next p.1 p.2) = .error .endless ∧ PassesOver s
  obtain ⟨a, m, ha, hp⟩ | ⟨he, hpasses⟩ := h s
  · rw [ha]
    obtain ⟨b, n, hb, hq⟩ | ⟨he, hpasses⟩ := hn a hp (after m s)
    · exact .inl ⟨b, m + n, by rw [← after_after]; exact hb, hq⟩
    · exact .inr ⟨he, hpasses.of_after⟩
  · rw [he]
    exact .inr ⟨rfl, hpasses⟩

theorem Yields.imp {draw : Draw σ α} {P Q : α → Prop} (h : Yields draw P) (hi : ∀ a, P a → Q a) :
    Yields draw Q := by
  intro s
  obtain ⟨a, taken, ha, hp⟩ | hendless := h s
  · exact .inl ⟨a, taken, ha, hi a hp⟩
  · exact .inr hendless

theorem times_yields {draw : Draw σ α} {P : α → Prop} (h : Yields draw P) (n : Nat) :
    Yields (times n draw) fun xs => xs.length = n ∧ ∀ x ∈ xs, P x := by
  induction n with
  | zero => exact .pure ⟨rfl, nofun⟩
  | succ n ih =>
    refine h.bind fun x hx => ih.bind fun xs hxs => .pure ⟨?_, List.forall_mem_cons.2 ⟨hx, hxs.2⟩⟩
    rw [List.length_cons, hxs.1]

/-! ## Whole numbers -/

/-- The high part of the product is below the size of the range. -/
theorem high_lt {v bits n : Nat} (hv : v < Nat.pow 2 bits) (hn : 0 < n) :
    v * n / Nat.pow 2 bits < n := by
  rw [Nat.pow_eq] at hv ⊢
  rw [Nat.div_lt_iff_lt_mul (Nat.two_pow_pos bits), Nat.mul_comm n]
  exact Nat.mul_lt_mul_of_pos_right hv hn

/-- A draw from one word at a time. -/
theorem multiplied_yields {zone n : Nat} (hn : 0 < n) (hp : ∀ s : σ,
    (∀ k, counts 32 zone n (read32 (after k s)).1 = false) → PassesOver s) :
    Yields (multiplied read32 32 zone n : Draw σ Nat) (· < n) := by
  intro s
  obtain ⟨k, -, -, hk⟩ | ⟨hpassed, he⟩ := multiplied_cases read32 32 zone n s
  · exact .inl ⟨_, k + 1, hk, high_lt (read32_lt _) hn⟩
  · exact .inr ⟨he, hp s hpassed⟩

theorem word32_yields : Yields (word32 : Draw σ Nat) (· < Nat.pow 2 32) :=
  fun s => .inl ⟨_, 1, rfl, read32_lt s⟩

theorem word64_yields : Yields (word64 : Draw σ Nat) (· < Nat.pow 2 64) :=
  fun s => .inl ⟨_, 2, rfl, read64_lt s⟩

theorem lessThan32_yields {n : Nat} (hn : 0 < n) : Yields (lessThan32 n : Draw σ Nat) (· < n) :=
  multiplied_yields hn fun s hpassed => .narrow n 0 fun k => by rw [Nat.zero_add]; exact hpassed k

theorem lessThan16_yields {n : Nat} (hn : 0 < n) : Yields (lessThan16 n : Draw σ Nat) (· < n) :=
  multiplied_yields hn fun s hpassed => .short n 0 fun k => by rw [Nat.zero_add]; exact hpassed k

theorem lessThan64_yields {n : Nat} (hn : 0 < n) : Yields (lessThan64 n : Draw σ Nat) (· < n) := by
  intro s
  obtain ⟨k, -, -, hk⟩ | ⟨hpassed, he⟩ := multiplied_cases read64 64 (shiftedZone 64 n) n s
  · refine .inl ⟨_, 2 * (k + 1), ?_, high_lt (read64_lt (behind read64 k s)) hn⟩
    rw [← behind_read64]
    exact hk
  · refine .inr ⟨he, .wide n 0 fun k => ?_⟩
    rw [Nat.zero_add, ← behind_read64]
    exact hpassed k

theorem between32_yields {low high : Nat} (h : low ≤ high) :
    Yields (between32 low high : Draw σ Nat) fun n => low ≤ n ∧ n ≤ high :=
  (lessThan32_yields (Nat.succ_pos _)).bind fun n hn => .pure (by omega)

theorem between64_yields {low high : Nat} (h : low ≤ high) :
    Yields (between64 low high : Draw σ Nat) fun n => low ≤ n ∧ n ≤ high :=
  (lessThan64_yields (Nat.succ_pos _)).bind fun n hn => .pure (by omega)

/-- A position is drawn exactly where there is one. -/
theorem index_yields (n : Nat) :
    Yields (index n : Draw σ (Option Nat)) fun drawn => if n = 0 then drawn = none else
      ∃ i, drawn = some i ∧ i < n := by
  unfold index
  split
  · exact .pure rfl
  · exact (lessThan64_yields (by omega)).bind fun i hi => .pure ⟨i, rfl, hi⟩

/-- What is picked from a list of words is one of them. -/
theorem pick_yields {words : List String} (h : words ≠ []) :
    Yields (pick words : Draw σ String) (· ∈ words) := by
  refine (lessThan32_yields (List.length_pos_iff.2 h)).bind fun i hi => .pure ?_
  rw [List.getD_eq_getElem?_getD, List.getElem?_eq_getElem hi, Option.getD_some]
  exact List.getElem_mem hi

/-! ## Samples -/

theorem insertBefore_perm (old new : Nat) (xs : List Nat) :
    (insertBefore old new xs).Perm (new :: xs) := by
  induction xs with
  | nil => exact .refl _
  | cons x xs ih =>
    unfold insertBefore
    split
    · exact .refl _
    · exact (ih.cons x).trans (.swap new x xs)

/-- Some distinct positions below a limit. -/
structure Sampled (limit : Nat) (chosen : List Nat) : Prop where
  nodup : chosen.Nodup
  below : ∀ i ∈ chosen, i < limit

/-- One more position up to the limit keeps the choice distinct: where the drawn position was taken
already the limit itself comes in, and no earlier choice reached it. -/
theorem Sampled.choose {limit t : Nat} {chosen : List Nat} (h : Sampled limit chosen) (ht : t ≤ limit) :
    Sampled (limit + 1) (Random.choose limit t chosen) ∧
      (Random.choose limit t chosen).length = chosen.length + 1 := by
  -- whichever position is added is a new one
  obtain ⟨new, hn, hp⟩ : ∃ new, (new ∉ chosen ∧ new ≤ limit) ∧
      (Random.choose limit t chosen).Perm (new :: chosen) := by
    unfold Random.choose
    split
    · exact ⟨limit, ⟨fun hm => Nat.lt_irrefl _ (h.below _ hm), Nat.le_refl _⟩,
        insertBefore_perm t limit chosen⟩
    · rename_i hc
      exact ⟨t, ⟨by simpa using hc, ht⟩, List.perm_append_singleton t chosen⟩
  refine ⟨⟨hp.nodup_iff.2 (List.nodup_cons.2 ⟨hn.1, h.nodup⟩), fun i hi => ?_⟩, by simp [hp.length_eq]⟩
  rcases List.mem_cons.1 (hp.mem_iff.1 hi) with rfl | hi
  · exact Nat.lt_succ_of_le hn.2
  · exact Nat.lt_succ_of_lt (h.below i hi)

theorem sampleFrom_yields (count limit : Nat) (chosen : List Nat) (h : Sampled limit chosen) :
    Yields (sampleFrom count limit chosen : Draw σ (List Nat)) fun positions =>
      Sampled (limit + count) positions ∧ positions.length = chosen.length + count := by
  induction count generalizing limit chosen with
  | zero => exact .pure ⟨h, rfl⟩
  | succ count ih =>
    refine (between32_yields (Nat.zero_le limit)).bind fun t ht => ?_
    obtain ⟨hs, hl⟩ := h.choose ht.2
    exact (ih (limit + 1) _ hs).imp fun positions hp =>
      ⟨by rw [show limit + (count + 1) = limit + 1 + count by omega]; exact hp.1, by rw [hp.2]; omega⟩

/-- A sample has as many positions as were asked for, each below the length and none twice. -/
theorem sample_yields {length count : Nat} (h : count ≤ length) :
    Yields (sample length count : Draw σ (List Nat)) fun positions =>
      Sampled length positions ∧ positions.length = count := by
  refine (sampleFrom_yields count (length - count) [] ⟨.nil, by simp⟩).imp fun positions hp => ?_
  rw [Nat.sub_add_cancel h] at hp
  exact ⟨hp.1, by simpa using hp.2⟩

end Yields

end LunchRush.Random
