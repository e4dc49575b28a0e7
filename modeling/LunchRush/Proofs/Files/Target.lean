import LunchRush.Files.System
import LunchRush.Proofs.Results
/-!
# Where paths end

A path ends where a walk along its segments leads (`ofPath_eq_ok_iff`), and the last name is looked up there
(`Ends`). The last segment of `Path.besides path ending` is the name of `path` with `ending` after it, and what
stands before it leads to the same directory, as segments that name nothing do not move a walk
(`Ends.besides`).
-/

namespace LunchRush

namespace Path

theorem segments_append_slash (a b : String) : segments (a ++ "/" ++ b) = segments a ++ segments b := by
  simp [segments, List.splitOn_append_cons_self]

theorem segments_of_no_slash {s : String} (h : '/' ∉ s.toList) : segments s = [s] := by
  simp [segments, List.splitOn_eq_singleton h]

theorem not_mem_of_mem_splitOn {cs part : List Char} (h : part ∈ cs.splitOn '/') : '/' ∉ part := by
  induction cs generalizing part with
  | nil => simp only [List.splitOn_nil, List.mem_singleton] at h; simp [h]
  | cons c cs ih =>
    rw [List.splitOn_cons_eq_if_modifyHead] at h
    split at h
    · rcases List.mem_cons.1 h with rfl | h
      · simp
      · exact ih h
    · rename_i hc
      obtain ⟨first, parts, he⟩ := List.exists_cons_of_ne_nil (List.splitOn_ne_nil '/' cs)
      rw [he, List.modifyHead_cons] at h
      rcases List.mem_cons.1 h with rfl | h
      · have hf : '/' ∉ first := ih (by simp [he])
        simp only [beq_iff_eq] at hc
        simpa [hf] using Ne.symm hc
      · exact ih (by simp [he, h])

theorem no_slash_of_mem_segments {path s : String} (h : s ∈ segments path) : '/' ∉ s.toList := by
  obtain ⟨part, hp, rfl⟩ := List.mem_map.1 h
  simpa using not_mem_of_mem_splitOn hp

theorem segments_intercalate {parts : List String} (h : ∀ s ∈ parts, '/' ∉ s.toList)
    (hne : parts ≠ []) : segments (String.intercalate "/" parts) = parts := by
  have hs : ∀ part ∈ parts.map String.toList, '/' ∉ part := by
    intro part hp
    obtain ⟨s, hm, rfl⟩ := List.mem_map.1 hp
    exact h s hm
  rw [segments, String.toList_intercalate, show "/".toList = ['/'] from rfl,
    List.splitOn_intercalate '/' hs (by simpa using hne)]
  simp

/-- The last segment of a joined path is the name; those before it are the directory's, apart from
what a closing slash leaves behind. -/
theorem segments_join {name : String} (h : '/' ∉ name.toList) (directory : String) :
    ∃ before, segments (join directory name) = before ++ [name] ∧
      (segments directory = before ∨ segments directory = before ++ [""]) := by
  unfold join
  split
  · rename_i he
    refine ⟨[], segments_of_no_slash h, .inr ?_⟩
    rw [String.isEmpty_iff.1 he]
    rfl
  · split
    · rename_i hlast
      have hlast : directory.toList.getLast? = some '/' := by simpa using hlast
      obtain ⟨above, ha⟩ := List.getLast?_eq_some_iff.1 hlast
      have hd : directory = String.ofList above ++ "/" := by
        apply String.toList_inj.1
        simp [ha]
      refine ⟨segments (String.ofList above), ?_, .inr ?_⟩
      · rw [hd, segments_append_slash, segments_of_no_slash h]
      · have hs := segments_append_slash (String.ofList above) ""
        rw [String.append_empty] at hs
        rw [hd, hs]
        rfl
    · exact ⟨segments directory, by rw [segments_append_slash, segments_of_no_slash h], .inl rfl⟩

theorem significant_cons {segment : String} {before : List String} (h : before ≠ []) :
    significant (segment :: before) =
      if segment = "" || segment = "." then significant before else segment :: before := by
  cases before with
  | nil => exact absurd rfl h
  | cons first rest => rfl

theorem significant_suffix (reversed : List String) : significant reversed <:+ reversed := by
  induction reversed using significant.induct with
  | case1 => exact List.suffix_refl _
  | case2 first => exact List.suffix_refl _
  | case3 segment before hne hs ih =>
    rw [significant_cons (fun h => hne h), if_pos hs]
    exact ih.trans (List.suffix_cons segment before)
  | case4 segment before hne hs =>
    have hkeep : significant (segment :: before) = segment :: before := by
      rw [significant_cons (fun h => hne h), if_neg hs]
    exact ⟨[], hkeep⟩

theorem significant_ne_nil {reversed : List String} (h : reversed ≠ []) :
    significant reversed ≠ [] := by
  induction reversed using significant.induct with
  | case1 => exact h
  | case2 first => exact h
  | case3 segment before hne hs ih =>
    rw [significant_cons (fun h => hne h), if_pos hs]
    exact ih fun hnil => hne (hnil ▸ rfl)
  | case4 segment before hne hs =>
    rw [significant_cons (fun h => hne h), if_neg hs]
    exact h

theorem name?_of_reverse {path name : String} {before : List String}
    (h : (segments path).reverse = name :: before) (h0 : name ≠ "") (h1 : name ≠ ".")
    (h2 : name ≠ "..") : name? path = some name := by
  have hs : ∃ rest, significant (name :: before) = name :: rest := by
    cases before with
    | nil => exact ⟨[], rfl⟩
    | cons s rest => exact ⟨s :: rest, by simp [significant, h0, h1]⟩
  obtain ⟨rest, hs⟩ := hs
  simp [name?, h, hs, h0, h1, h2]

theorem no_slash_of_name? {path name : String} (h : name? path = some name) : '/' ∉ name.toList := by
  unfold name? at h
  split at h
  · rename_i last before hs
    split at h
    · cases h
    · obtain rfl : last = name := Option.some.inj h
      apply no_slash_of_mem_segments
      rw [← List.mem_reverse]
      exact (significant_suffix _).mem (hs ▸ List.mem_cons_self)
  · cases h

/-- The last segment of the path beside a path has the ending. -/
theorem besides_segments {ending : String} (he : '/' ∉ ending.toList) (path : String) :
    ∃ before name, (segments (besides path ending)).reverse = (name ++ ending) :: before := by
  unfold besides
  split
  · rename_i name hn
    have hslash : '/' ∉ (name ++ ending).toList := by simp [no_slash_of_name? hn, he]
    obtain ⟨before, hj, -⟩ := segments_join hslash ((parent? path).getD "")
    exact ⟨before.reverse, name, by simp [hj]⟩
  · obtain ⟨before, hj, -⟩ := segments_join he path
    exact ⟨before.reverse, "", by simp [hj]⟩

end Path

namespace Target

variable {walk : List String → Except FileError Location}

/-! ## Ends of paths -/

/-- Where the segments of a path lead, the last one first and without those that closing slashes leave
behind. -/
def LeadsTo (walk : List String → Except FileError Location) (target : Target) : List String → Prop
  | [] => target.directory = [] ∧ target.last = .reached
  | last :: before =>
    if last = "." || last = ".." then
      walk (before.reverse ++ [last]) = .ok target.directory ∧ target.last = .reached
    else walk before.reverse = .ok target.directory ∧ target.last = .name last

theorem map_eq_ok_iff {walked : Except FileError Location} {last : LastSegment} {slashed : Bool}
    {target : Target} : walked.map (⟨·, last, slashed⟩) = .ok target ↔
      target.slashed = slashed ∧ walked = .ok target.directory ∧ target.last = last := by
  obtain ⟨directory, final, slashed'⟩ := target
  cases walked with
  | error e => simp [Except.map]
  | ok reached =>
    simp only [Except.map, Except.ok.injEq, Target.mk.injEq]
    constructor
    · rintro ⟨hd, hl, hs⟩
      exact ⟨hs.symm, hd, hl.symm⟩
    · rintro ⟨hs, hd, hl⟩
      exact ⟨hd, hl.symm, hs.symm⟩

/-- Where a path ends is settled by a walk along its segments. -/
theorem ofPath_eq_ok_iff {path : String} {target : Target} :
    ofPath walk path = .ok target ↔
      path.toList.contains '\x00' = false ∧ path.isEmpty = false ∧ path.utf8ByteSize < 4096 ∧
      target.slashed = ((Path.segments path).reverse.head? == some "") ∧
      LeadsTo walk target ((Path.segments path).reverse.dropWhile (· == "")) := by
  unfold ofPath
  -- the guards refuse a path before anything is walked
  by_cases h0 : path.toList.contains '\x00' = true
  · simp only [h0, if_true, reduceCtorEq, Bool.true_eq_false, false_and]
  · by_cases h1 : path.isEmpty = true
    · simp only [h0, h1, if_true, reduceCtorEq, Bool.true_eq_false, false_and, and_false, if_false]
    · by_cases h2 : 4096 ≤ path.utf8ByteSize
      · simp only [h0, h1, h2, if_true, reduceCtorEq, if_false, Nat.not_lt.2 h2, false_and, and_false]
      · rw [if_neg h0, if_neg h1, if_neg h2]
        simp only [Bool.not_eq_true] at h0 h1
        simp only [h0, h1, Nat.not_le.1 h2, true_and]
        cases (Path.segments path).reverse.dropWhile (· == "") with
        | nil =>
          obtain ⟨directory, final, slashed⟩ := target
          simp only [LeadsTo, Except.ok.injEq, Target.mk.injEq]
          constructor
          · rintro ⟨hd, hl, hs⟩
            exact ⟨hs.symm, hd.symm, hl.symm⟩
          · rintro ⟨hs, hd, hl⟩
            exact ⟨hd.symm, hl.symm, hs.symm⟩
        | cons last before =>
          unfold LeadsTo
          dsimp only
          split
          · exact map_eq_ok_iff
          · exact map_eq_ok_iff

/-- A path ends where it does also for a walk that leads as far. -/
theorem ofPath_mono {walk' : List String → Except FileError Location}
    (hw : ∀ segments reached, walk segments = .ok reached → walk' segments = .ok reached) {path : String}
    {target : Target} (h : ofPath walk path = .ok target) : ofPath walk' path = .ok target := by
  rw [ofPath_eq_ok_iff] at h ⊢
  obtain ⟨h0, h1, h2, h3, h4⟩ := h
  refine ⟨h0, h1, h2, h3, ?_⟩
  unfold LeadsTo at h4 ⊢
  split
  · rename_i hd; rw [hd] at h4; exact h4
  · rename_i last before hd
    rw [hd] at h4
    dsimp only at h4
    split
    · rename_i hl
      rw [if_pos hl] at h4
      exact ⟨hw _ _ h4.1, h4.2⟩
    · rename_i hl
      rw [if_neg hl] at h4
      exact ⟨hw _ _ h4.1, h4.2⟩

/-! ## Last names -/

/-- The path ends in a name that is looked up in a directory, with no slash behind it. -/
def Ends (walk : List String → Except FileError Location) (path : String) (directory : Location)
    (name : String) : Prop :=
  ofPath walk path = .ok ⟨directory, .name name, false⟩

/-- The last name is the last segment of the path. -/
theorem Ends.segments {path name : String} {directory : Location} (h : Ends walk path directory name) :
    ∃ before, (Path.segments path).reverse = name :: before ∧ name ≠ "" ∧ name ≠ "." ∧ name ≠ ".." ∧
      walk before.reverse = .ok directory := by
  obtain ⟨-, -, -, hs, hw⟩ := ofPath_eq_ok_iff.1 h
  -- a closing slash would leave an empty segment behind
  have hhead : (Path.segments path).reverse.head? ≠ some "" := by
    intro he
    rw [he] at hs
    simp at hs
  have hkeep : (Path.segments path).reverse.dropWhile (· == "") = (Path.segments path).reverse := by
    cases hr : (Path.segments path).reverse with
    | nil => rfl
    | cons last before =>
      rw [hr] at hhead
      exact List.dropWhile_cons_of_neg (by simpa using hhead)
  rw [hkeep] at hw
  unfold LeadsTo at hw
  cases hr : (Path.segments path).reverse with
  | nil =>
    rw [hr] at hw
    cases hw.2
  | cons last before =>
    rw [hr] at hw hhead
    dsimp only at hw
    split at hw
    · cases hw.2
    · rename_i hdots
      obtain ⟨hwalk, hname⟩ := hw
      cases hname
      simp only [Bool.or_eq_true, decide_eq_true_eq, not_or] at hdots
      exact ⟨before, rfl, by simpa using hhead, hdots.1, hdots.2, hwalk⟩

/-! ## The path beside a path -/

/-- Segments that name nothing lead nowhere else. -/
def Steady (walk : List String → Except FileError Location) : Prop :=
  ∀ segments segment, segment = "" ∨ segment = "." → walk (segments ++ [segment]) = walk segments

theorem Steady.significant (hw : Steady walk) (reversed : List String) :
    walk (Path.significant reversed).reverse = walk reversed.reverse := by
  induction reversed using Path.significant.induct with
  | case1 => rfl
  | case2 first => rfl
  | case3 segment before hne hs ih =>
    rw [Path.significant_cons (fun h => hne h), if_pos hs, ih, List.reverse_cons,
      hw _ _ (by simpa using hs)]
  | case4 segment before hne hs =>
    rw [Path.significant_cons (fun h => hne h), if_neg hs]

theorem Steady.ofReversed (hw : Steady walk) {reversed : List String}
    (h : ∀ s ∈ reversed, '/' ∉ s.toList) (hne : reversed ≠ []) :
    walk (Path.segments (Path.ofReversed reversed)) = walk reversed.reverse := by
  unfold Path.ofReversed
  split
  · show walk (([] ++ [""]) ++ [""]) = walk ([] ++ [""])
    exact hw _ _ (.inl rfl)
  · rw [Path.segments_intercalate (by simpa using h) (by simpa using hne)]

/-- The parent of a path is where the segments before its name lead. -/
theorem Steady.parent (hw : Steady walk) {path name : String} {before : List String}
    (hr : (Path.segments path).reverse = name :: before) (h0 : name ≠ "") (h1 : name ≠ ".") :
    walk (Path.segments ((Path.parent? path).getD "")) = walk before.reverse := by
  have hslash : ∀ s ∈ before, '/' ∉ s.toList := by
    intro s hs
    refine Path.no_slash_of_mem_segments (?_ : s ∈ Path.segments path)
    rw [← List.mem_reverse, hr]
    exact List.mem_cons_of_mem _ hs
  cases before with
  | nil =>
    have hp : Path.parent? path = some "" := by simp [Path.parent?, hr, Path.significant]
    rw [hp]
    exact hw [] "" (.inl rfl)
  | cons last above =>
    have hp : Path.parent? path = some (Path.ofReversed (Path.significant (last :: above))) := by
      simp [Path.parent?, hr, Path.significant, h0, h1]
    rw [hp, Option.getD_some, hw.ofReversed ?_ ?_, hw.significant]
    · intro s hs
      exact hslash s ((Path.significant_suffix (last :: above)).mem hs)
    · exact Path.significant_ne_nil (List.cons_ne_nil _ _)

/-- The path beside a path ends in the same directory, with the ending after the name. -/
theorem Ends.besides (hw : Steady walk) {path ending name name' : String} {directory directory' : Location}
    (he : '/' ∉ ending.toList) (ha : Ends walk path directory name)
    (hb : Ends walk (Path.besides path ending) directory' name') :
    directory' = directory ∧ name' = name ++ ending := by
  obtain ⟨before, hr, h0, h1, h2, hwalk⟩ := ha.segments
  obtain ⟨before', hr', -, -, -, hwalk'⟩ := hb.segments
  have hslash : '/' ∉ name.toList := by
    refine Path.no_slash_of_mem_segments (?_ : name ∈ Path.segments path)
    rw [← List.mem_reverse, hr]
    exact List.mem_cons_self
  have hslash' : '/' ∉ (name ++ ending).toList := by simp [hslash, he]
  obtain ⟨above, hj, hd⟩ := Path.segments_join hslash' ((Path.parent? path).getD "")
  rw [Path.besides, Path.name?_of_reverse hr h0 h1 h2] at hr'
  rw [hj, List.reverse_append, List.reverse_singleton, List.singleton_append, List.cons.injEq] at hr'
  obtain ⟨rfl, rfl⟩ := hr'
  -- the segments before both names lead to the parent of the path
  have hparent := hw.parent hr h0 h1
  have habove : walk above = walk before.reverse := by
    rcases hd with hd | hd
    · rw [← hd, hparent]
    · rw [← hparent, hd, hw _ _ (.inl rfl)]
  rw [List.reverse_reverse, habove, hwalk] at hwalk'
  cases hwalk'
  exact ⟨rfl, rfl⟩

/-- The path beside a path ends in a name, if it ends at all. -/
theorem ofPath_besides {path ending : String} {target : Target} (he : '/' ∉ ending.toList)
    (hlen : 2 < ending.toList.length) (h : ofPath walk (Path.besides path ending) = .ok target) :
    ∃ directory name, target = ⟨directory, .name name, false⟩ := by
  obtain ⟨before, name, hr⟩ := Path.besides_segments he path
  -- a name with so long an ending is neither empty nor made of dots
  have hne : ∀ other : String, other.toList.length ≤ 2 → name ++ ending ≠ other := by
    rintro other hother rfl
    simp only [String.toList_append, List.length_append] at hother
    omega
  have h0 : name ++ ending ≠ "" := hne "" (by decide)
  have h1 : name ++ ending ≠ "." := hne "." (by decide)
  have h2 : name ++ ending ≠ ".." := hne ".." (by decide)
  obtain ⟨-, -, -, hs, hw⟩ := ofPath_eq_ok_iff.1 h
  rw [hr] at hs hw
  rw [List.dropWhile_cons_of_neg (by simpa using h0)] at hw
  unfold LeadsTo at hw
  dsimp only at hw
  rw [if_neg (by simp [h1, h2])] at hw
  obtain ⟨directory, last, slashed⟩ := target
  obtain rfl : last = .name (name ++ ending) := hw.2
  obtain rfl : slashed = false := hs.trans (beq_eq_false_iff_ne.2 (by simpa using h0))
  exact ⟨directory, name ++ ending, rfl⟩

/-- A name is another one with something after it. -/
theorem ne_append {name ending : String} (h : ending ≠ "") : name ≠ name ++ ending := by
  intro heq
  have hlen := congrArg (fun s => s.toList.length) heq
  have hpos : 0 < ending.toList.length := List.length_pos_iff.2 (by simpa using h)
  simp only [String.toList_append, List.length_append] at hlen
  omega

end Target

end LunchRush
