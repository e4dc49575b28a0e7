import LunchRush.Url.Parser
/-!
# Paths written one behind the other

The segments of a path and of one that is written behind it are resolved one after the other
(`pathOf_append`): what dots take away from the first is gone before the second is read, and the second
one stays as it is written where it holds only letters, digits and slashes.
-/

namespace LunchRush.Url

/-! ## Cutting at slashes -/

theorem splitOn_ne_nil (separator : Char) (cs : List Char) : splitOn separator cs ≠ [] := by
  cases cs with
  | nil => exact List.cons_ne_nil _ _
  | cons c cs =>
    rw [splitOn]
    split
    · exact List.cons_ne_nil _ _
    · split <;> exact List.cons_ne_nil _ _

theorem splitOn_cons_of_ne {separator c : Char} (hc : c ≠ separator) (cs : List Char) :
    ∃ part parts, splitOn separator cs = part :: parts ∧
      splitOn separator (c :: cs) = (c :: part) :: parts := by
  obtain ⟨part, parts, hparts⟩ := List.exists_cons_of_ne_nil (splitOn_ne_nil separator cs)
  refine ⟨part, parts, hparts, ?_⟩
  rw [splitOn, if_neg hc, hparts]

theorem splitOn_append (separator : Char) (cs more : List Char) :
    splitOn separator (cs ++ separator :: more) = splitOn separator cs ++ splitOn separator more := by
  induction cs with
  | nil => simp [splitOn]
  | cons c cs ih =>
    by_cases hc : c = separator
    · subst hc
      simp [splitOn, ih]
    · obtain ⟨part, parts, hparts, hcons⟩ := splitOn_cons_of_ne hc cs
      rw [hparts] at ih
      rw [hcons, List.cons_append, splitOn, if_neg hc, ih]
      rfl

/-- What does not end in a separator has a last part that is not empty. -/
theorem splitOn_concat {separator c : Char} (hc : c ≠ separator) (cs : List Char) :
    ∃ parts part, splitOn separator (cs ++ [c]) = parts ++ [part ++ [c]] := by
  induction cs with
  | nil => exact ⟨[], [], by simp [splitOn, hc]⟩
  | cons d cs ih =>
    obtain ⟨parts, part, hparts⟩ := ih
    by_cases hd : d = separator
    · subst hd
      exact ⟨[] :: parts, part, by simp [splitOn, hparts]⟩
    · rw [List.cons_append, splitOn, if_neg hd, hparts]
      cases parts with
      | nil => exact ⟨[], d :: part, rfl⟩
      | cons first parts => exact ⟨(d :: first) :: parts, part, rfl⟩

/-- The segments of a path as it is written, each after a slash. -/
theorem splitOn_flatMap (cs : List Char) : (splitOn '/' cs).flatMap ('/' :: ·) = '/' :: cs := by
  induction cs with
  | nil => rfl
  | cons c cs ih =>
    by_cases hc : c = '/'
    · subst hc
      rw [splitOn, if_pos rfl, List.flatMap_cons, ih]
      rfl
    · obtain ⟨part, parts, hparts, hcons⟩ := splitOn_cons_of_ne hc cs
      rw [hparts, List.flatMap_cons, List.cons_append, List.cons_inj_right] at ih
      rw [hcons, List.flatMap_cons, List.cons_append, List.cons_append, ih]

/-! ## Dots -/

/-- What is done after a segment that is not the last one. -/
def stepIn (done : List (List Char)) (segment : List Char) : List (List Char) :=
  match dots? segment with
  | some 1 => done
  | some 2 => stepUp done
  | _ => percentEncode inPath segment :: done

theorem resolve_cons {rest : List (List Char)} (hr : rest ≠ []) (done : List (List Char))
    (segment : List Char) : resolve done (segment :: rest) = resolve (stepIn done segment) rest := by
  have hlast : rest.isEmpty = false := by simp [hr]
  unfold stepIn
  rw [resolve]
  split <;> simp [*]

theorem resolve_append {more : List (List Char)} (hm : more ≠ []) (segments : List (List Char)) :
    ∀ done, resolve done (segments ++ more) = resolve (segments.foldl stepIn done) more := by
  induction segments with
  | nil => intro done; rfl
  | cons segment rest ih =>
    intro done
    rw [List.cons_append, resolve_cons (by simp [hm]), ih]
    rfl

/-- Dots that come last leave an empty segment. -/
theorem resolve_last (done : List (List Char)) (segment : List Char) :
    resolve done [segment] = (stepIn done segment).reverse ++ [[]] ∨
      stepIn done segment = percentEncode inPath segment :: done ∧
        resolve done [segment] = (stepIn done segment).reverse := by
  unfold stepIn
  rw [resolve]
  split
  · left; simp [resolve, *]
  · left; simp [resolve, *]
  · right; simp [resolve, *]

theorem resolve_of_no_dots {segments : List (List Char)}
    (hs : ∀ segment ∈ segments, dots? segment ≠ some 1 ∧ dots? segment ≠ some 2) :
    ∀ done, resolve done segments = done.reverse ++ segments.map (percentEncode inPath) := by
  induction segments with
  | nil => intro done; simp [resolve]
  | cons segment rest ih =>
    intro done
    obtain ⟨h1, h2⟩ := hs segment List.mem_cons_self
    rw [resolve]
    split
    case h_1 h => exact absurd h h1
    case h_2 h => exact absurd h h2
    case h_3 =>
      rw [ih fun other ho => hs other (List.mem_cons_of_mem _ ho)]
      simp

/-! ## Paths of letters and digits -/

/-- Paths of letters, digits and slashes. -/
def IsSimple (path : List Char) : Prop := ∀ c ∈ path, c.isAlphanum = true ∨ c = '/'

theorem isSimple_of_all {path : List Char} (h : path.all (fun c => c.isAlphanum || c == '/') = true) :
    IsSimple path := by
  intro c hc
  simpa using List.all_eq_true.1 h c hc

theorem mem_of_mem_splitOn {separator c : Char} {part cs : List Char}
    (hp : part ∈ splitOn separator cs) (hc : c ∈ part) : c ∈ cs ∧ c ≠ separator := by
  induction cs generalizing part with
  | nil =>
    rw [List.mem_singleton.1 hp] at hc
    cases hc
  | cons d cs ih =>
    by_cases hd : d = separator
    · subst hd
      rw [splitOn, if_pos rfl] at hp
      rcases List.mem_cons.1 hp with rfl | hp
      · cases hc
      · obtain ⟨hmem, hne⟩ := ih hp hc
        exact ⟨List.mem_cons_of_mem _ hmem, hne⟩
    · obtain ⟨first, parts, hparts, hcons⟩ := splitOn_cons_of_ne hd cs
      rw [hparts] at ih
      rw [hcons] at hp
      rcases List.mem_cons.1 hp with rfl | hp
      · rcases List.mem_cons.1 hc with rfl | hc
        · exact ⟨List.mem_cons_self, hd⟩
        · obtain ⟨hmem, hne⟩ := ih List.mem_cons_self hc
          exact ⟨List.mem_cons_of_mem _ hmem, hne⟩
      · obtain ⟨hmem, hne⟩ := ih (List.mem_cons_of_mem _ hp) hc
        exact ⟨List.mem_cons_of_mem _ hmem, hne⟩

theorem alphanum_bounds {c : Char} (h : c.isAlphanum = true) : 0x30 ≤ c.toNat ∧ c.toNat ≤ 0x7a := by
  have hbounds : ∀ {low high : Char}, 0x30 ≤ low.toNat → high.toNat ≤ 0x7a →
      c.val ≥ low.val ∧ c.val ≤ high.val → 0x30 ≤ c.toNat ∧ c.toNat ≤ 0x7a := by
    intro low high hlow hhigh hc
    exact ⟨Nat.le_trans hlow hc.1, Nat.le_trans hc.2 hhigh⟩
  rcases (Bool.or_eq_true _ _).mp h with hletter | hdigit
  · rcases (Bool.or_eq_true _ _).mp hletter with hupper | hlower
    · exact hbounds (by decide) (by decide) (of_decide_eq_true hupper)
    · obtain ⟨hlow, hhigh⟩ := (Bool.and_eq_true _ _).mp hlower
      exact hbounds (by decide) (by decide) ⟨of_decide_eq_true hlow, of_decide_eq_true hhigh⟩
  · obtain ⟨hlow, hhigh⟩ := (Bool.and_eq_true _ _).mp hdigit
    exact hbounds (by decide) (by decide) ⟨of_decide_eq_true hlow, of_decide_eq_true hhigh⟩

theorem inPath_of_alphanum {c : Char} (h : c.isAlphanum = true) : inPath c = false := by
  rw [Bool.eq_false_iff]
  intro hc
  simp [inPath, inFragment] at hc
  rcases hc with ((((rfl | rfl | rfl | rfl) | rfl) | rfl | rfl) | rfl) | rfl <;> cases h

theorem percentEncode_simple {segment : List Char} (h : ∀ c ∈ segment, c.isAlphanum = true) :
    percentEncode inPath segment = segment := by
  induction segment with
  | nil => rfl
  | cons c segment ih =>
    have hc := h c List.mem_cons_self
    obtain ⟨hlow, hhigh⟩ := alphanum_bounds hc
    rw [percentEncode, List.flatMap_cons, ← percentEncode, ih fun d hd => h d (List.mem_cons_of_mem _ hd)]
    rw [if_neg]
    · rfl
    · simp only [inPath_of_alphanum hc, Bool.or_false, Bool.or_eq_true, decide_eq_true_eq]
      omega

theorem dots?_simple {segment : List Char} (h : ∀ c ∈ segment, c.isAlphanum = true) :
    dots? segment ≠ some 1 ∧ dots? segment ≠ some 2 := by
  cases segment with
  | nil => decide
  | cons c segment =>
    have hc := h c List.mem_cons_self
    have hnone : dots? (c :: segment) = none := by
      unfold dots?
      split
      case h_1 he => cases he
      case h_2 he | h_3 he | h_4 he =>
        cases he
        cases hc
      case h_5 => rfl
    simp [hnone]

theorem resolve_simple {path : List Char} (h : IsSimple path) (done : List (List Char)) :
    resolve done (splitOn '/' path) = done.reverse ++ splitOn '/' path := by
  have hparts : ∀ part ∈ splitOn '/' path, ∀ c ∈ part, c.isAlphanum = true := by
    intro part hp c hc
    obtain ⟨hmem, hne⟩ := mem_of_mem_splitOn hp hc
    exact (h c hmem).resolve_right hne
  rw [resolve_of_no_dots fun part hp => dots?_simple (hparts part hp)]
  congr 1
  calc (splitOn '/' path).map (percentEncode inPath)
    _ = (splitOn '/' path).map id :=
      List.map_congr_left fun part hp => percentEncode_simple (hparts part hp)
    _ = splitOn '/' path := List.map_id _

end LunchRush.Url
