import LunchRush.Proofs.Files.Tree
/-!
# Making directories

Making directories changes nothing that was there (`makeDirectories_adds`). In a rooted tree, where
every entry stands in a directory, a path without `..` that finds an entry of the larger tree has
found it before, if the entry was there (`Finds.before`). Directories that are there are not made
again (`makeDirectories_of_isDirectory`).
-/

namespace LunchRush

/-- What a call for one directory and a look at one keep, making many keeps. -/
theorem FileSystem.makeDirectories_keeps {φ : Type} [FileSystem φ] {P : φ → Prop}
    (hmake : ∀ path files, P files → P (makeDirectory path files).2)
    (hlook : ∀ path files, P files → P (isDirectory path files).2) (fuel : Nat) :
    ∀ path files, P files → P (makeDirectories fuel path files).2 := by
  have hunless : ∀ path e files, P files → P (unlessDirectory path e files).2 := by
    intro path e files hp
    have hl := hlook path files hp
    unfold unlessDirectory
    split
    · rename_i h; rw [h] at hl; exact hl
    · rename_i h; rw [h] at hl; exact hl
  induction fuel with
  | zero => intro _ _ hp; exact hp
  | succ fuel ih =>
    intro path files hp
    have hm := hmake path files hp
    unfold makeDirectories
    split
    · exact hp
    · split
      · rename_i h; rw [h] at hm; exact hm
      · rename_i h
        rw [h] at hm
        split
        · exact hm
        · rename_i parent _
          -- the parents are made first, and then the directory is tried once more
          have hparent := ih parent _ hm
          split
          · rename_i h; rw [h] at hparent; exact hparent
          · rename_i h
            rw [h] at hparent
            have hagain := hmake path _ hparent
            unfold ensureDirectory
            split
            · rename_i h; rw [h] at hagain; exact hagain
            · rename_i h; rw [h] at hagain; exact hunless _ _ _ hagain
      · rename_i h
        rw [h] at hm
        exact hunless _ _ _ hm

namespace FileTree

/-- The second tree has some more directories and is otherwise the first. -/
def AddsDirectories (t t' : FileTree) : Prop :=
  ∀ location, t'.get? location = t.get? location ∨
    (t.get? location = none ∧ t'.get? location = some .directory)

/-- Every entry stands in a directory, as it does in any file system. -/
def Rooted (t : FileTree) : Prop :=
  ∀ directory name, t.get? (directory ++ [name]) ≠ none → t.get? directory = some .directory

/-! ## Directories that are added -/

theorem AddsDirectories.refl (t : FileTree) : AddsDirectories t t := fun _ => .inl rfl

theorem AddsDirectories.get? {t t' : FileTree} (h : AddsDirectories t t') {location : Location}
    {entry : Entry} (hg : t.get? location = some entry) : t'.get? location = some entry := by
  rcases h location with h | ⟨hn, -⟩
  · rw [h, hg]
  · rw [hg] at hn; cases hn

theorem AddsDirectories.file {t t' : FileTree} (h : AddsDirectories t t') {location : Location}
    {bytes : ByteArray} (hg : t'.get? location = some (.file bytes)) :
    t.get? location = some (.file bytes) := by
  rcases h location with h | ⟨-, hd⟩
  · rw [← h, hg]
  · rw [hg] at hd; cases hd

theorem AddsDirectories.keeps {t t' : FileTree} (h : AddsDirectories t t') : KeepsDirectories t t' :=
  fun _ hg => h.get? hg

theorem AddsDirectories.trans {t t' t'' : FileTree} (h : AddsDirectories t t')
    (h' : AddsDirectories t' t'') : AddsDirectories t t'' := by
  intro location
  rcases h location with hl | ⟨hn, hd⟩
  · rw [← hl]; exact h' location
  · exact .inr ⟨hn, h'.get? hd⟩

theorem makeDirectory_eq_ok {t t' : FileTree} {path : String} (h : t.makeDirectory path = .ok t') :
    ∃ target name, t.locate path = .ok target ∧ target.last = .name name ∧
      t.get? (target.directory ++ [name]) = none ∧
      t' = t.put (target.directory ++ [name]) .directory := by
  unfold makeDirectory at h
  obtain ⟨target, hl, h⟩ := ok_of_bind h
  split at h
  · cases h
  · rename_i name hlast
    obtain ⟨entry, hc, h⟩ := ok_of_bind h
    obtain ⟨-, hg⟩ := child_eq_ok_iff.1 hc
    split at h
    · cases h
    · cases h
      exact ⟨target, name, hl, hlast, hg, rfl⟩

theorem makeDirectory_adds {t t' : FileTree} {path : String} (h : t.makeDirectory path = .ok t') :
    AddsDirectories t t' := by
  obtain ⟨target, name, -, -, hg, rfl⟩ := makeDirectory_eq_ok h
  intro location
  rw [get?_put (by simp)]
  split
  · rename_i he; subst he; exact .inr ⟨hg, rfl⟩
  · exact .inl rfl

/-- What making one directory preserves, making many preserves. -/
theorem makeDirectories_preserves {P : FileTree → Prop}
    (hP : ∀ {t t' : FileTree} {path : String}, P t → t.makeDirectory path = .ok t' → P t')
    (fuel : Nat) {t : FileTree} (ht : P t) (path : String) :
    P (FileSystem.makeDirectories fuel path t).2 := by
  apply FileSystem.makeDirectories_keeps (P := P) _ (fun path t ht => ht) fuel path t ht
  intro path t ht
  show P (t.served (t.makeDirectory path)).2
  cases hm : t.makeDirectory path with
  | error e => exact ht
  | ok t' => exact hP ht hm

theorem makeDirectories_adds (fuel : Nat) (t : FileTree) (path : String) :
    AddsDirectories t (FileSystem.makeDirectories fuel path t).2 :=
  makeDirectories_preserves (P := AddsDirectories t) (fun h hm => h.trans (makeDirectory_adds hm)) fuel
    (.refl t) path

/-! ## Directories that are there -/

theorem isDirectory_of_locate {t : FileTree} {path : String} {target : Target}
    (hl : t.locate path = .ok target)
    (hg : ∀ name, target.last = .name name → t.get? (target.directory ++ [name]) = some .directory) :
    t.isDirectory path = true := by
  unfold isDirectory
  rw [hl]
  dsimp only
  split
  · rfl
  · rename_i name hlast
    rw [hg name hlast]
    rfl

theorem isDirectory_spec {t : FileTree} {path : String} (h : t.isDirectory path = true) :
    ∃ target, t.locate path = .ok target ∧
      ∀ name, target.last = .name name → t.get? (target.directory ++ [name]) = some .directory := by
  unfold isDirectory at h
  split at h
  · cases h
  · rename_i target hl
    refine ⟨target, hl, fun name hlast => ?_⟩
    rw [hlast] at h
    simpa using h

theorem isDirectory_mono {t t' : FileTree} (hk : KeepsDirectories t t') {path : String}
    (h : t.isDirectory path = true) : t'.isDirectory path = true := by
  obtain ⟨target, hl, hg⟩ := isDirectory_spec h
  exact isDirectory_of_locate (locate_mono hk hl) fun name hlast => hk _ (hg name hlast)

theorem isDirectory_of_makeDirectory {t t' : FileTree} {path : String}
    (h : t.makeDirectory path = .ok t') : t'.isDirectory path = true := by
  obtain ⟨target, name, hl, hlast, -, rfl⟩ := makeDirectory_eq_ok h
  refine isDirectory_of_locate (locate_mono (makeDirectory_adds h).keeps hl) fun other ho => ?_
  rw [hlast] at ho
  cases ho
  rw [get?_put (by simp), if_pos rfl]

theorem unlessDirectory_eq (path : String) (e : FileError) (t : FileTree) :
    FileSystem.unlessDirectory path e t = if t.isDirectory path then (.ok (), t) else (.error e, t) := by
  have hlook : FileSystem.isDirectory path t = (t.isDirectory path, t) := rfl
  unfold FileSystem.unlessDirectory
  rw [hlook]
  cases t.isDirectory path <;> rfl

theorem isDirectory_of_unlessDirectory {t t' : FileTree} {path : String} {e : FileError}
    (h : FileSystem.unlessDirectory path e t = (.ok (), t')) : t'.isDirectory path = true := by
  rw [unlessDirectory_eq] at h
  split at h
  · rename_i hd
    cases h
    exact hd
  · cases h

/-- Directories that were made are there. -/
theorem isDirectory_of_makeDirectories (fuel : Nat) : ∀ {t t' : FileTree} {path : String},
    path.isEmpty = false → FileSystem.makeDirectories fuel path t = (.ok (), t') →
      t'.isDirectory path = true := by
  cases fuel with
  | zero => intro t t' path _ h; cases h
  | succ fuel =>
    intro t t' path hne h
    unfold FileSystem.makeDirectories at h
    rw [if_neg (by simpa using hne)] at h
    split at h
    · rename_i hm
      cases h
      exact isDirectory_of_makeDirectory (served_eq_ok hm)
    · split at h
      · cases h
      · split at h
        · cases h
        · unfold FileSystem.ensureDirectory at h
          split at h
          · rename_i hm
            cases h
            exact isDirectory_of_makeDirectory (served_eq_ok hm)
          · exact isDirectory_of_unlessDirectory h
    · exact isDirectory_of_unlessDirectory h

/-- A directory that is there is not made again. -/
theorem makeDirectories_of_isDirectory {t : FileTree} {path : String} (h : t.isDirectory path = true)
    (fuel : Nat) : FileSystem.makeDirectories (fuel + 1) path t = (.ok (), t) := by
  obtain ⟨target, hl, hg⟩ := isDirectory_spec h
  have hm : ∃ e, t.makeDirectory path = .error e ∧ e ≠ .notFound := by
    unfold makeDirectory
    rw [hl]
    simp only [bind, Except.bind]
    split
    · exact ⟨_, rfl, nofun⟩
    · rename_i name hlast
      unfold child
      rw [hg name hlast]
      split
      · rename_i hc
        split at hc
        · cases hc
          exact ⟨_, rfl, nofun⟩
        · cases hc
      · rename_i hc
        split at hc
        · cases hc
        · cases hc
          exact ⟨_, rfl, nofun⟩
  obtain ⟨e, hm, he⟩ := hm
  have hmake : FileSystem.makeDirectory path t = (.error e, t) := by
    show t.served (t.makeDirectory path) = _
    rw [hm]
    rfl
  have hthere : FileSystem.unlessDirectory path e t = (.ok (), t) := by
    rw [unlessDirectory_eq, if_pos h]
  unfold FileSystem.makeDirectories
  split
  · rfl
  · rw [hmake]
    split
    · rename_i hok; cases hok
    · rename_i hnot; cases hnot; exact absurd rfl he
    · rename_i hother; cases hother; exact hthere

/-! ## Rooted trees -/

/-- Entries of the working directory alone make a rooted tree. -/
theorem rooted_of_top {t : FileTree} (h : ∀ x ∈ t.entries, x.1.length = 1) : t.Rooted := by
  intro directory name hg
  rw [get?_of_ne_nil (by simp)] at hg
  have hmem : ∃ x ∈ t.entries, x.1 = directory ++ [name] := by
    refine Classical.byContradiction fun hn => hg (List.lookup_eq_none_iff.2 fun x hx => ?_)
    exact bne_iff_ne.2 fun he => hn ⟨x, hx, he.symm⟩
  obtain ⟨x, hx, he⟩ := hmem
  have hlen := h x hx
  rw [he, List.length_append, List.length_singleton] at hlen
  have hnil : directory = [] := List.length_eq_zero_iff.1 (by omega)
  rw [hnil]
  rfl

/-- What an entry stands below is a directory. -/
theorem Rooted.above {t : FileTree} (hr : t.Rooted) {location : Location} (below : Location)
    (hb : below ≠ []) (h : t.get? (location ++ below) ≠ none) : t.get? location = some .directory := by
  induction below generalizing location with
  | nil => exact absurd rfl hb
  | cons name below ih =>
    by_cases hn : below = []
    · subst hn; exact hr location name h
    · have hd : t.get? (location ++ [name]) = some .directory := ih hn (by simpa using h)
      exact hr location name (by rw [hd]; simp)

/-- A walk in a rooted tree from a directory ends in a directory. -/
theorem Rooted.walk {t : FileTree} (hr : t.Rooted) (segments : List String) :
    ∀ {directory reached : Location}, t.get? directory = some .directory →
      t.walk directory segments = .ok reached → t.get? reached = some .directory := by
  induction segments with
  | nil => intro _ _ hd h; cases h; exact hd
  | cons segment rest ih =>
    intro directory reached hd h
    rw [walk_cons] at h
    rcases h with ⟨-, hw⟩ | ⟨-, hw⟩ | ⟨-, -, hg, hw⟩
    · exact ih hd hw
    · -- what a directory stands in is one, and above the top is the top
      refine ih ?_ hw
      by_cases hn : directory = []
      · subst hn; rfl
      · rw [← List.dropLast_concat_getLast hn] at hd
        exact hr _ _ (by rw [hd]; simp)
    · exact ih hg hw

theorem Rooted.put {t : FileTree} (hr : t.Rooted) {directory : Location} {name : String}
    (hd : t.get? directory = some .directory) {entry : Entry}
    (hg : entry = .directory ∨ t.get? (directory ++ [name]) ≠ some .directory) :
    (t.put (directory ++ [name]) entry).Rooted := by
  intro above last h
  rw [get?_put (by simp)] at h ⊢
  have habove : t.get? above = some .directory := by
    split at h
    · rename_i he
      rw [(List.append_inj' he rfl).1]
      exact hd
    · exact hr above last h
  split
  · rename_i he
    rcases hg with rfl | hg
    · rfl
    · rw [← he] at hg; exact absurd habove hg
  · exact habove

theorem Rooted.erase {t : FileTree} (hr : t.Rooted) {location : Location} (hl : location ≠ [])
    (hg : t.get? location ≠ some .directory) : (t.erase location).Rooted := by
  intro above last h
  rw [get?_erase hl] at h ⊢
  split at h
  · exact absurd rfl h
  · have habove := hr above last h
    rw [if_neg]
    · exact habove
    · rintro rfl; exact hg habove

theorem Rooted.makeDirectory {t t' : FileTree} (hr : t.Rooted) {path : String}
    (h : t.makeDirectory path = .ok t') : t'.Rooted := by
  obtain ⟨target, name, hl, -, -, rfl⟩ := makeDirectory_eq_ok h
  refine hr.put ?_ (.inl rfl)
  obtain ⟨-, -, -, -, hw⟩ := locate_eq_ok_iff.1 hl
  unfold Target.LeadsTo at hw
  split at hw
  · rw [hw.1]; rfl
  · split at hw
    · exact hr.walk _ rfl hw.1
    · exact hr.walk _ rfl hw.1

theorem Rooted.makeDirectories (fuel : Nat) {t : FileTree} (hr : t.Rooted) (path : String) :
    (FileSystem.makeDirectories fuel path t).2.Rooted :=
  makeDirectories_preserves (fun hr hm => hr.makeDirectory hm) fuel hr path

/-! ## Paths that go down only -/

/-- Without `..` a walk ends below its start. -/
theorem walk_below {t : FileTree} (segments : List String) (hs : ".." ∉ segments) :
    ∀ {directory reached : Location}, t.walk directory segments = .ok reached →
      ∃ below, reached = directory ++ below := by
  induction segments with
  | nil => intro _ _ h; cases h; exact ⟨[], by simp⟩
  | cons segment rest ih =>
    simp only [List.mem_cons, not_or] at hs
    intro directory reached h
    rw [walk_cons] at h
    rcases h with ⟨-, hw⟩ | ⟨hup, -⟩ | ⟨-, -, -, hw⟩
    · exact ih hs.2 hw
    · exact absurd hup.symm hs.1
    · obtain ⟨below, rfl⟩ := ih hs.2 hw
      exact ⟨segment :: below, by simp⟩

theorem walk_before {t t' : FileTree} (hr : t.Rooted) (segments : List String)
    (hs : ".." ∉ segments) : ∀ {directory reached : Location},
      t'.walk directory segments = .ok reached → t.get? reached = some .directory →
      t.walk directory segments = .ok reached := by
  induction segments with
  | nil => intro _ _ h _; exact h
  | cons segment rest ih =>
    simp only [List.mem_cons, not_or] at hs
    intro directory reached h hd
    rw [walk_cons] at h ⊢
    rcases h with ⟨he, hw⟩ | ⟨hup, -⟩ | ⟨he, hl, -, hw⟩
    · exact .inl ⟨he, ih hs.2 hw hd⟩
    · exact absurd hup.symm hs.1
    · -- the walk ends below this step, so the step was a directory before as well
      obtain ⟨below, hb⟩ := walk_below rest hs.2 hw
      refine .inr (.inr ⟨he, hl, ?_, ih hs.2 hw hd⟩)
      by_cases hn : below = []
      · rw [← hd, hb, hn, List.append_nil]
      · exact hr.above below hn (by rw [← hb, hd]; simp)

/-- What a path without `..` finds was found before, if it was there. -/
theorem Finds.before {t t' : FileTree} (hr : t.Rooted) {path : String}
    (hs : ".." ∉ Path.segments path) {location : Location} (h : t'.Finds path location)
    (hg : t.get? location ≠ none) : t.Finds path location := by
  obtain ⟨target, name, hl, hn, hsl, hsize, rfl⟩ := h
  have hd := hr _ _ hg
  refine ⟨target, name, ?_, hn, hsl, hsize, rfl⟩
  rw [locate_eq_ok_iff] at hl ⊢
  obtain ⟨h0, h1, h2, h3, h4⟩ := hl
  refine ⟨h0, h1, h2, h3, ?_⟩
  have hmem : ∀ s ∈ (Path.segments path).reverse.dropWhile (· == ""), s ≠ ".." := by
    rintro s hs' rfl
    exact hs (List.mem_reverse.1 ((List.dropWhile_suffix _).mem hs'))
  unfold Target.LeadsTo at h4 ⊢
  split
  · rename_i hnil; rw [hnil] at h4; exact h4
  · rename_i last before hcons
    rw [hcons] at h4 hmem
    dsimp only at h4
    split
    · rename_i hdots
      rw [if_pos hdots, hn] at h4
      cases h4.2
    · rename_i hdots
      rw [if_neg hdots] at h4
      refine ⟨walk_before hr _ ?_ h4.1 hd, h4.2⟩
      intro hup
      exact hmem ".." (List.mem_cons_of_mem _ (List.mem_reverse.1 hup)) rfl

end FileTree

end LunchRush
