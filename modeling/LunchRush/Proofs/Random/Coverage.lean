import LunchRush.Proofs.Random.Draws
import Mathlib.Algebra.GroupWithZero.Nat
/-!
# What draws can bring

A draw brings a value when there are words that make it do so, whatever words follow them. A number of a
range is brought by the least word whose product reaches it, so none of the range is left out
(`lessThan64_brings`); and every row of distinct positions is a sample that some words make, since the last
choice can be taken back (`exists_choose`, `sample_brings`). Whatever the words are, an index is drawn from
the first of them that counts, and never where none counts (`index_first`, `index_passed`).
-/

namespace LunchRush.Random

variable {α β : Type}

/-! ## Streams -/

/-- The words that a stream gives next. -/
def Stream.Begins (s : Stream) (ws : List UInt32) : Prop :=
  ∀ i w, ws[i]? = some w → s.words (s.position + i) = w

/-- The stream after some words. -/
def Stream.skip (s : Stream) (n : Nat) : Stream := { s with position := s.position + n }

theorem Stream.skip_skip (s : Stream) (m n : Nat) : (s.skip m).skip n = s.skip (m + n) := by
  simp only [skip, Nat.add_assoc]

theorem Stream.Begins.append {s : Stream} {ws ws' : List UInt32} (h : s.Begins (ws ++ ws')) :
    s.Begins ws ∧ (s.skip ws.length).Begins ws' := by
  constructor
  · intro i w hi
    exact h i w ((List.getElem?_append_left (List.getElem?_eq_some_iff.1 hi).1).trans hi)
  · intro i w hi
    have hw := h (ws.length + i) w
    rw [List.getElem?_append_right (Nat.le_add_right _ _), Nat.add_sub_cancel_left, ← Nat.add_assoc] at hw
    exact hw hi

/-- A stream with the given words at its beginning. -/
def Stream.ofList (ws : List UInt32) : Stream := ⟨fun i => ws.getD i 0, 0⟩

theorem Stream.ofList_begins (ws : List UInt32) : (ofList ws).Begins ws := by
  intro i w hi
  show ws.getD (0 + i) 0 = w
  rw [Nat.zero_add, List.getD_eq_getElem?_getD, hi, Option.getD_some]

/-- Some words make the draw bring `a`, and it reads no others. -/
def Brings (draw : Draw Stream α) (a : α) : Prop :=
  ∃ ws : List UInt32, ∀ s : Stream, s.Begins ws → draw s = .ok (a, s.skip ws.length)

theorem Brings.exists_stream {draw : Draw Stream α} {a : α} (h : Brings draw a) :
    ∃ s s' : Stream, draw s = .ok (a, s') := by
  obtain ⟨ws, hws⟩ := h
  exact ⟨_, _, hws _ (Stream.ofList_begins ws)⟩

theorem Brings.pure (a : α) : Brings (pure a) a := ⟨[], fun _ _ => rfl⟩

theorem Brings.bind {draw : Draw Stream α} {next : α → Draw Stream β} {a : α} {b : β}
    (h : Brings draw a) (hn : Brings (next a) b) : Brings (draw >>= next) b := by
  obtain ⟨ws, hws⟩ := h
  obtain ⟨ws', hws'⟩ := hn
  refine ⟨ws ++ ws', fun s hs => ?_⟩
  obtain ⟨hfirst, hsecond⟩ := hs.append
  show (draw s >>= fun p => next p.1 p.2) = _
  rw [hws s hfirst]
  show next a (s.skip ws.length) = _
  rw [hws' _ hsecond, List.length_append, Stream.skip_skip]

/-! ## Whole numbers -/

theorem word32_brings {v : Nat} (hv : v < 2 ^ 32) : Brings word32 v := by
  refine ⟨[UInt32.ofNat v], fun s hs => ?_⟩
  have hw : s.words s.position = UInt32.ofNat v := hs 0 _ rfl
  show Except.ok ((s.words s.position).toNat, s.skip 1) = _
  rw [hw, UInt32.toNat_ofNat_of_lt' hv]
  rfl

theorem word64_eq_bind : (word64 : Draw Stream Nat) =
    word32 >>= fun low => word32 >>= fun high => pure (low + Nat.pow 2 32 * high) := rfl

theorem word64_brings {v : Nat} (hv : v < 2 ^ 64) : Brings word64 v := by
  have hlow : Brings word32 (v % 2 ^ 32) := word32_brings (Nat.mod_lt _ (by decide))
  have hhigh : Brings word32 (v / 2 ^ 32) := word32_brings (by omega)
  have hboth : Brings word64 (v % 2 ^ 32 + Nat.pow 2 32 * (v / 2 ^ 32)) := by
    rw [word64_eq_bind]
    exact hlow.bind (hhigh.bind (.pure _))
  rwa [Nat.pow_eq, Nat.mod_add_div] at hboth

/-- The least word whose product reaches a number below `n` counts: what its product has over is less than
`n`, and so within the zone. -/
theorem exists_word {bits n i : Nat} (hn : n ≤ 2 ^ bits) (hi : i < n) :
    ∃ v < 2 ^ bits, v * n / Nat.pow 2 bits = i ∧ v * n % Nat.pow 2 bits ≤ shiftedZone bits n := by
  obtain ⟨v, excess, hexcess, hv⟩ : ∃ v excess, excess < n ∧ v * n = i * 2 ^ bits + excess := by
    refine ⟨(i * 2 ^ bits + (n - 1)) / n, n - 1 - (i * 2 ^ bits + (n - 1)) % n, by omega, ?_⟩
    have hmod : (i * 2 ^ bits + (n - 1)) % n < n := Nat.mod_lt _ (by omega)
    have hdiv := Nat.div_add_mod' (i * 2 ^ bits + (n - 1)) n
    omega
  have hbits : excess < 2 ^ bits := Nat.lt_of_lt_of_le hexcess hn
  have hzone : n ≤ n * Nat.pow 2 (bits - (n.log2 + 1)) := Nat.le_mul_of_pos_right n (Nat.two_pow_pos _)
  refine ⟨v, ?_, ?_, ?_⟩
  · refine Nat.lt_of_mul_lt_mul_right (a := n) ?_
    calc v * n = i * 2 ^ bits + excess := hv
      _ < i * 2 ^ bits + 2 ^ bits := Nat.add_lt_add_left hbits _
      _ = (i + 1) * 2 ^ bits := (Nat.succ_mul _ _).symm
      _ ≤ n * 2 ^ bits := Nat.mul_le_mul_right _ hi
      _ = 2 ^ bits * n := Nat.mul_comm _ _
  · rw [hv, Nat.pow_eq, Nat.mul_comm, Nat.mul_add_div (Nat.two_pow_pos bits), Nat.div_eq_of_lt hbits,
      Nat.add_zero]
  · rw [hv, Nat.pow_eq, Nat.mul_comm, Nat.mul_add_mod, Nat.mod_eq_of_lt hbits]
    unfold shiftedZone
    omega

/-- A word that counts is taken at once. -/
theorem multiplied_brings {read : Stream → Nat × Stream} {bits zone n v : Nat}
    (hr : Brings (fun s => .ok (read s)) v) (hz : v * n % Nat.pow 2 bits ≤ zone) :
    Brings (multiplied read bits zone n) (v * n / Nat.pow 2 bits) := by
  obtain ⟨ws, hws⟩ := hr
  refine ⟨ws, fun s hs => ?_⟩
  have hread : read s = (v, s.skip ws.length) := Except.ok.inj (hws s hs)
  have hcounts : counts bits zone n (read s).1 = true := by
    rw [hread]
    exact decide_eq_true hz
  rw [multiplied, firstCounting_eq_search, search_of_counts hcounts, hread]

theorem lessThan32_brings {n i : Nat} (hn : n ≤ 2 ^ 32) (hi : i < n) : Brings (lessThan32 n) i := by
  obtain ⟨v, hv, rfl, hz⟩ := exists_word hn hi
  exact multiplied_brings (word32_brings hv) hz

theorem lessThan64_brings {n i : Nat} (hn : n ≤ 2 ^ 64) (hi : i < n) : Brings (lessThan64 n) i := by
  obtain ⟨v, hv, rfl, hz⟩ := exists_word hn hi
  exact multiplied_brings (word64_brings hv) hz

theorem between32_brings {low high k : Nat} (hsize : high - low < 2 ^ 32) (hlow : low ≤ k)
    (hhigh : k ≤ high) : Brings (between32 low high) k := by
  have h : Brings (lessThan32 (high - low + 1)) (k - low) := lessThan32_brings hsize (by omega)
  have hsum : Brings (between32 low high) (low + (k - low)) := h.bind (.pure _)
  rwa [Nat.add_sub_cancel' hlow] at hsum

theorem between64_brings {low high k : Nat} (hsize : high - low < 2 ^ 64) (hlow : low ≤ k)
    (hhigh : k ≤ high) : Brings (between64 low high) k := by
  have h : Brings (lessThan64 (high - low + 1)) (k - low) := lessThan64_brings hsize (by omega)
  have hsum : Brings (between64 low high) (low + (k - low)) := h.bind (.pure _)
  rwa [Nat.add_sub_cancel' hlow] at hsum

/-! ## The word that is taken -/

/-- The `k`th pair of words that a stream gives, as one number. -/
def Stream.word64 (s : Stream) (k : Nat) : Nat :=
  (s.words (s.position + 2 * k)).toNat + Nat.pow 2 32 * (s.words (s.position + 2 * k + 1)).toNat

/-- Whether a number below `n` is drawn from a word, which is passed over otherwise. -/
abbrev Counts (n v : Nat) : Prop := v * n % Nat.pow 2 64 ≤ shiftedZone 64 n

theorem Stream.after_eq (n : Nat) : ∀ s : Stream, after n s = s.skip n := by
  induction n with
  | zero => intro s; rfl
  | succ n ih =>
    intro s
    refine (ih (s.skip 1)).trans ?_
    rw [skip_skip, Nat.add_comm 1 n]

theorem Stream.nth_read64 (s : Stream) (k : Nat) : nth read64 s k = s.word64 k := by
  rw [nth, behind_read64, after_eq]
  rfl

theorem index_eq {σ : Type} [Source σ] {n : Nat} (hn : 0 < n) (s : σ) :
    index n s = (lessThan64 n s).map fun drawn => (some drawn.1, drawn.2) := by
  unfold index
  rw [if_neg (Nat.ne_of_gt hn)]
  change (lessThan64 n s >>= fun p => _) = _
  cases lessThan64 n s <;> rfl

theorem index_first {n k : Nat} {s : Stream} (hn : 0 < n)
    (hpassed : ∀ j < k, ¬ Counts n (s.word64 j)) (hcounts : Counts n (s.word64 k)) :
    index n s = .ok (some (s.word64 k * n / Nat.pow 2 64), s.skip (2 * (k + 1))) := by
  have hearlier : ∀ j < k, counts 64 (shiftedZone 64 n) n (nth read64 s j) = false := fun j hj =>
    decide_eq_false (by rw [s.nth_read64]; exact hpassed j hj)
  have htaken : counts 64 (shiftedZone 64 n) n (nth read64 s k) = true :=
    decide_eq_true (by rw [s.nth_read64]; exact hcounts)
  have hfirst := firstCounting_first k s hearlier htaken
  rw [behind_read64, s.nth_read64, Stream.after_eq] at hfirst
  rw [index_eq hn, lessThan64, multiplied, hfirst]
  rfl

theorem index_passed {n : Nat} {s : Stream} (hn : 0 < n) (hpassed : ∀ j, ¬ Counts n (s.word64 j)) :
    index n s = .error .endless := by
  have hnever : ∀ k, counts 64 (shiftedZone 64 n) n (nth read64 s k) = false := fun k =>
    decide_eq_false (by rw [s.nth_read64]; exact hpassed k)
  rw [index_eq hn, lessThan64, multiplied, firstCounting_eq_none hnever]
  rfl

/-- Every position of as many things as a word can count is brought. -/
theorem index_brings {n i : Nat} (hn : n ≤ 2 ^ 64) (hi : i < n) : Brings (index n) (some i) := by
  unfold index
  rw [if_neg (by omega)]
  exact (lessThan64_brings hn hi).bind (.pure _)

/-! ## Samples -/

theorem insertBefore_append {old : Nat} (new : Nat) {before : List Nat} (after : List Nat)
    (h : old ∉ before) :
    insertBefore old new (before ++ old :: after) = before ++ new :: old :: after := by
  induction before with
  | nil => exact if_pos rfl
  | cons x before ih =>
    rw [List.mem_cons, not_or] at h
    rw [List.cons_append, insertBefore, if_neg (Ne.symm h.1), ih h.2]
    rfl

/-- Positions up to a limit that are not the limit itself lie below it. -/
theorem Sampled.of_not_mem {limit : Nat} {positions chosen : List Nat} (h : Sampled (limit + 1) positions)
    (hs : chosen.Sublist positions) (hl : limit ∉ chosen) : Sampled limit chosen := by
  refine ⟨h.nodup.sublist hs, fun i hi => ?_⟩
  have hle := h.below i (hs.subset hi)
  have hne : i ≠ limit := fun he => hl (he ▸ hi)
  omega

/-- The last choice can be taken back: where the limit stands, the position behind it was drawn for a second
time, and elsewhere the last position is the one that was drawn. -/
theorem exists_choose {limit : Nat} {positions : List Nat} (h : Sampled (limit + 1) positions)
    (hne : positions ≠ []) : ∃ t chosen, t ≤ limit ∧ Sampled limit chosen ∧
      chosen.length + 1 = positions.length ∧ choose limit t chosen = positions := by
  -- the limit is in the row only if the last draw put it there
  by_cases hm : limit ∈ positions
  · obtain ⟨before, after, rfl⟩ := List.append_of_mem hm
    obtain ⟨hbefore, hafter⟩ : limit ∉ before ∧ limit ∉ after := by
      have hn := List.perm_middle.nodup_iff.1 h.nodup
      simpa using (List.nodup_cons.1 hn).1
    have hchosen : Sampled limit (before ++ after) :=
      h.of_not_mem ((List.sublist_cons_self _ _).append_left _) (by simp [hbefore, hafter])
    cases after with
    | nil =>
      rw [List.append_nil] at hchosen
      refine ⟨limit, before, Nat.le_refl _, hchosen, by simp, ?_⟩
      rw [choose, if_neg (by simpa using hbefore)]
    | cons t after =>
      have ht : t ∉ before := fun hb =>
        (List.nodup_append.1 hchosen.nodup).2.2 t hb t List.mem_cons_self rfl
      refine ⟨t, before ++ t :: after, Nat.le_of_lt (hchosen.below t (by simp)), hchosen, by simp; omega, ?_⟩
      rw [choose, if_pos (by simp), insertBefore_append limit after ht]
  · have hlast := List.dropLast_concat_getLast hne
    generalize positions.dropLast = chosen, positions.getLast hne = t at hlast
    subst hlast
    have ht : t < limit + 1 := h.below t (by simp)
    have hchosen := h.of_not_mem (List.sublist_append_left _ _) fun hl => hm (List.mem_append_left _ hl)
    refine ⟨t, chosen, Nat.le_of_lt_succ ht, hchosen, by simp, ?_⟩
    rw [choose, if_neg]
    simpa using fun ht => (List.nodup_append.1 h.nodup).2.2 t ht t List.mem_cons_self rfl

/-- A sample with one more choice is a sample, and then that choice. -/
theorem sampleFrom_succ {σ : Type} [Source σ] (count limit : Nat) (chosen : List Nat) :
    (sampleFrom (count + 1) limit chosen : Draw σ (List Nat)) =
      sampleFrom count limit chosen >>= fun chosen => do
        let t ← between32 0 (limit + count)
        return choose (limit + count) t chosen := by
  induction count generalizing limit chosen with
  | zero => rfl
  | succ count ih =>
    have hsum : limit + 1 + count = limit + (count + 1) := by omega
    have hlater : ∀ t, sampleFrom (count + 1) (limit + 1) (choose limit t chosen) =
        sampleFrom count (limit + 1) (choose limit t chosen) >>= fun chosen => do
          let t ← between32 0 (limit + (count + 1))
          return choose (limit + (count + 1)) t chosen := fun t => by rw [ih, hsum]
    show (between32 0 limit >>= fun t => sampleFrom (count + 1) (limit + 1) (choose limit t chosen)) =
      (between32 0 limit >>= fun t => sampleFrom count (limit + 1) (choose limit t chosen)) >>= _
    rw [bind_assoc, funext hlater]

/-- Every row of distinct positions is chosen by some words. -/
theorem sampleFrom_brings (count limit : Nat) {positions : List Nat} (hsize : limit + count ≤ 2 ^ 32)
    (h : Sampled (limit + count) positions) (hl : positions.length = count) :
    Brings (sampleFrom count limit []) positions := by
  -- taken back from the last choice on, for the positions below a smaller limit
  induction count generalizing positions with
  | zero =>
    rw [List.length_eq_zero_iff.1 hl]
    exact .pure []
  | succ count ih =>
    have hlast : Sampled ((limit + count) + 1) positions := h
    obtain ⟨t, chosen, ht, hchosen, hlength, rfl⟩ := exists_choose hlast (List.ne_nil_of_length_eq_add_one hl)
    rw [sampleFrom_succ]
    have hdrawn : Brings (between32 0 (limit + count)) t :=
      between32_brings (by omega) (Nat.zero_le t) ht
    exact (ih (by omega) hchosen (by omega)).bind (hdrawn.bind (.pure _))

theorem sample_brings {length : Nat} {positions : List Nat} (hsize : length ≤ 2 ^ 32)
    (h : Sampled length positions) (hl : positions.length ≤ length) :
    Brings (sample length positions.length) positions := by
  have hsum : length - positions.length + positions.length = length := Nat.sub_add_cancel hl
  exact sampleFrom_brings _ _ (hsum.symm ▸ hsize) (hsum.symm ▸ h) rfl

end LunchRush.Random
