import Mathlib.Data.List.TakeDrop
import Mathlib.Data.List.TakeWhile
/-!
# The characters up to another kind

Readers take the longest stretch of characters of one kind. Where such a stretch is followed by
something else, exactly the stretch is taken.
-/

namespace LunchRush.Text

variable {α : Type}

/-- Whether what comes next, if anything, is not of a kind. -/
def Stops (p : α → Bool) (rest : List α) : Prop := ∀ a, rest.head? = some a → p a = false

theorem Stops.nil (p : α → Bool) : Stops p [] := fun _ h => by cases h

theorem Stops.cons {p : α → Bool} {a : α} (rest : List α) (h : p a = false) : Stops p (a :: rest) := by
  rintro b ⟨⟩
  exact h

theorem span_append {p : α → Bool} {taken rest : List α} (ht : ∀ a ∈ taken, p a = true)
    (hr : Stops p rest) : (taken ++ rest).span p = (taken, rest) := by
  rw [List.span_eq_takeWhile_dropWhile, List.takeWhile_append_of_pos ht, List.dropWhile_append_of_pos ht]
  cases rest with
  | nil => simp
  | cons a rest => simp [hr a rfl]

/-- What is written behind a text that goes on after its first stretch leaves the stretch as it is. -/
theorem stretch_append {p : α → Bool} {xs rest : List α} {a : α} (h : xs.dropWhile p = a :: rest)
    (more : List α) : (xs ++ more).takeWhile p = xs.takeWhile p ∧
      (xs ++ more).dropWhile p = a :: (rest ++ more) := by
  have ha : p a = false := by
    have hhead := List.head?_dropWhile_not p xs
    rw [h] at hhead
    simpa using hhead
  have htaken : ∀ b ∈ xs.takeWhile p, p b = true := fun _ hb => List.mem_takeWhile_imp hb
  have hspan := span_append htaken (Stops.cons (rest ++ more) ha)
  rw [List.span_eq_takeWhile_dropWhile, Prod.mk.injEq, ← List.cons_append, ← h, ← List.append_assoc,
    List.takeWhile_append_dropWhile, h] at hspan
  exact hspan

/-- Induction on a text cut into stretches: one that is not of a kind, one that is, and what follows
them, which begins with the first sort again. -/
theorem stretches {p : α → Bool} {motive : List α → Prop}
    (last : ∀ word, (∀ a ∈ word, p a = false) → motive word)
    (gap : ∀ word gap rest, (∀ a ∈ word, p a = false) → gap ≠ [] → (∀ a ∈ gap, p a = true) →
      Stops p rest → motive rest → motive (word ++ (gap ++ rest))) (cs : List α) : motive cs := by
  induction h : cs.length using Nat.strongRecOn generalizing cs with
  | ind n ih =>
    subst h
    have hword : ∀ a ∈ cs.takeWhile (!p ·), p a = false := fun a ha => by
      simpa using List.mem_takeWhile_imp ha
    rw [← List.takeWhile_append_dropWhile (p := (!p ·)) (l := cs)]
    cases htail : cs.dropWhile (!p ·) with
    | nil => simpa using last _ hword
    | cons first tail =>
      have hfirst : p first = true := by
        have := List.head?_dropWhile_not (!p ·) cs
        rw [htail] at this
        simpa using this
      have hgap : ∀ a ∈ (first :: tail).takeWhile p, p a = true := fun a ha => List.mem_takeWhile_imp ha
      rw [← List.takeWhile_append_dropWhile (p := p) (l := first :: tail)]
      refine gap _ _ _ hword (by simp [hfirst]) hgap ?_ (ih _ ?_ _ rfl)
      · intro a ha
        have := List.head?_dropWhile_not p (first :: tail)
        rw [ha] at this
        simpa using this
      · have htaken := (List.dropWhile_sublist (!p ·) (l := cs)).length_le
        have hleft := (List.dropWhile_sublist p (l := tail)).length_le
        rw [htail] at htaken
        simp [hfirst] at htaken ⊢
        omega

/-- The stretch of a kind at the start of a text, and what follows it. -/
theorem exists_leading (p : α → Bool) (cs : List α) : ∃ lead core, cs = lead ++ core ∧
    (∀ a ∈ lead, p a = true) ∧ Stops p core := by
  induction cs with
  | nil => exact ⟨[], [], rfl, nofun, .nil p⟩
  | cons a cs ih =>
    cases ha : p a with
    | false => exact ⟨[], a :: cs, rfl, nofun, .cons cs ha⟩
    | true =>
      obtain ⟨lead, core, rfl, hlead, hcore⟩ := ih
      exact ⟨a :: lead, core, rfl, List.forall_mem_cons.2 ⟨ha, hlead⟩, hcore⟩

/-- The stretch of a kind at the end of a text, and what stands before it. -/
theorem exists_trailing (p : α → Bool) (cs : List α) : ∃ core ends, cs = core ++ ends ∧
    (∀ a ∈ ends, p a = true) ∧ ∀ a, core.getLast? = some a → p a = false := by
  induction cs with
  | nil => exact ⟨[], [], rfl, nofun, nofun⟩
  | cons a cs ih =>
    obtain ⟨core, ends, rfl, hends, hcore⟩ := ih
    cases core with
    | cons b core => exact ⟨a :: b :: core, ends, rfl, hends, by simpa [List.getLast?_cons] using hcore⟩
    | nil =>
      cases ha : p a with
      | true => exact ⟨[], a :: ends, rfl, List.forall_mem_cons.2 ⟨ha, hends⟩, nofun⟩
      | false => exact ⟨[a], ends, rfl, hends, by simpa using ha⟩

end LunchRush.Text
