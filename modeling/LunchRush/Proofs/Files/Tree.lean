import LunchRush.Files.Tree
import LunchRush.Proofs.Files.Target
/-!
# What a path finds

`Finds t path location` says that a path names an entry of an existing directory, at `location`.
Which location that is depends on the directories alone (`Finds.mono`), and every operation on a
single file is a lookup or a change at the location that its path finds (`read_eq_ok_iff`,
`writeAndSync_eq_ok`, `rename_eq_ok`, `remove_of_finds`).
-/

namespace LunchRush.FileTree

/-! ## Lookups -/

theorem lookup_filter_ne {location other : Location} (h : other ≠ location)
    (entries : List (Location × Entry)) :
    (entries.filter (·.1 != location)).lookup other = entries.lookup other := by
  induction entries with
  | nil => rfl
  | cons x entries ih =>
    obtain ⟨key, entry⟩ := x
    by_cases hk : key = location
    · subst hk
      have hne : (other == key) = false := beq_false_of_ne h
      simpa [List.lookup_cons, hne] using ih
    · rw [List.filter_cons_of_pos (by simpa using hk), List.lookup_cons, List.lookup_cons, ih]

theorem lookup_filter_self (location : Location) (entries : List (Location × Entry)) :
    (entries.filter (·.1 != location)).lookup location = none := by
  rw [List.lookup_eq_none_iff]
  intro x hx
  have hne : x.1 ≠ location := by simpa using (List.mem_filter.1 hx).2
  exact bne_iff_ne.2 (Ne.symm hne)

theorem get?_of_ne_nil {location : Location} (h : location ≠ []) (t : FileTree) :
    t.get? location = t.entries.lookup location := by
  cases location with
  | nil => exact absurd rfl h
  | cons name below => rfl

theorem get?_put {location : Location} (h : location ≠ []) (t : FileTree) (entry : Entry)
    (other : Location) :
    (t.put location entry).get? other = if other = location then some entry else t.get? other := by
  by_cases hnil : other = []
  · subst hnil; simp [get?, Ne.symm h]
  · rw [get?_of_ne_nil hnil, get?_of_ne_nil hnil]
    by_cases ho : other = location
    · simp [put, ho]
    · have hne : (other == location) = false := beq_false_of_ne ho
      simp [put, ho, List.lookup_cons, hne, lookup_filter_ne ho]

theorem get?_erase {location : Location} (h : location ≠ []) (t : FileTree) (other : Location) :
    (t.erase location).get? other = if other = location then none else t.get? other := by
  by_cases hnil : other = []
  · subst hnil; simp [get?, Ne.symm h]
  · rw [get?_of_ne_nil hnil, get?_of_ne_nil hnil]
    by_cases ho : other = location
    · simp [erase, ho, lookup_filter_self]
    · simp [erase, ho, lookup_filter_ne ho]

/-- A file that is written and taken away again leaves no trace. -/
theorem erase_put (t : FileTree) (location : Location) (entry : Entry) :
    (t.put location entry).erase location = t.erase location := by
  simp [put, erase, List.filter_filter]

/-! ## Walking -/

/-- All directories of `t` are directories of `t'`. -/
def KeepsDirectories (t t' : FileTree) : Prop :=
  ∀ location, t.get? location = some .directory → t'.get? location = some .directory

theorem child_eq_ok_iff {t : FileTree} {directory : Location} {name : String}
    {entry : Option Entry} :
    t.child directory name = .ok entry ↔
      name.utf8ByteSize ≤ 255 ∧ t.get? (directory ++ [name]) = entry := by
  unfold child
  split
  · simp; omega
  · simp; omega

/-- A step of a walk, by what its segment says. -/
theorem walk_cons {t : FileTree} {directory reached : Location} {segment : String}
    {rest : List String} :
    t.walk directory (segment :: rest) = .ok reached ↔
      ((segment = "" ∨ segment = ".") ∧ t.walk directory rest = .ok reached) ∨
      (segment = ".." ∧ t.walk directory.dropLast rest = .ok reached) ∨
      ((segment ≠ "" ∧ segment ≠ "." ∧ segment ≠ "..") ∧ segment.utf8ByteSize ≤ 255 ∧
        t.get? (directory ++ [segment]) = some .directory ∧
        t.walk (directory ++ [segment]) rest = .ok reached) := by
  rw [walk]
  -- a segment stays, goes up or names an entry of the directory
  by_cases hdot : segment = "" ∨ segment = "."
  · have hnot : segment ≠ ".." := by rcases hdot with rfl | rfl <;> decide
    have hif : (segment = "" || segment = ".") = true := by simpa using hdot
    rw [if_pos hif]
    simp only [hdot, hnot, true_and, false_and, false_or]
    constructor
    · exact .inl
    · rintro (h | ⟨⟨h1, h2, -⟩, -⟩)
      · exact h
      · exact absurd hdot (by simp [h1, h2])
  · have hif : ¬(segment = "" || segment = ".") = true := by simpa using hdot
    rw [if_neg hif]
    by_cases hup : segment = ".."
    · simp [hup]
    · rw [if_neg hup]
      simp only [hdot, hup, false_and, false_or, not_false_eq_true, and_true, ne_eq]
      have hne : ¬segment = "" ∧ ¬segment = "." := not_or.1 hdot
      simp only [hne.1, hne.2, not_false_eq_true, true_and]
      constructor
      · intro h
        split at h
        · cases h
        · cases h
        · cases h
        · rename_i hc
          exact ⟨(child_eq_ok_iff.1 hc).1, (child_eq_ok_iff.1 hc).2, h⟩
      · rintro ⟨hs, hg, hw⟩
        rw [child_eq_ok_iff.2 ⟨hs, hg⟩]
        exact hw

theorem walk_mono {t t' : FileTree} (hk : KeepsDirectories t t') (segments : List String) :
    ∀ {directory reached : Location}, t.walk directory segments = .ok reached →
      t'.walk directory segments = .ok reached := by
  induction segments with
  | nil => intro _ _ h; exact h
  | cons segment rest ih =>
    intro directory reached h
    rw [walk_cons] at h ⊢
    rcases h with ⟨hs, hw⟩ | ⟨hs, hw⟩ | ⟨hs, hl, hg, hw⟩
    · exact .inl ⟨hs, ih hw⟩
    · exact .inr (.inl ⟨hs, ih hw⟩)
    · exact .inr (.inr ⟨hs, hl, hk _ hg, ih hw⟩)

/-- Where a path ends is settled by a walk along its segments. -/
theorem locate_eq_ok_iff {t : FileTree} {path : String} {target : Target} :
    t.locate path = .ok target ↔
      path.toList.contains '\x00' = false ∧ path.isEmpty = false ∧ path.utf8ByteSize < 4096 ∧
      target.slashed = ((Path.segments path).reverse.head? == some "") ∧
      Target.LeadsTo (t.walk []) target ((Path.segments path).reverse.dropWhile (· == "")) :=
  Target.ofPath_eq_ok_iff

theorem locate_mono {t t' : FileTree} (hk : KeepsDirectories t t') {path : String} {target : Target}
    (h : t.locate path = .ok target) : t'.locate path = .ok target :=
  Target.ofPath_mono (fun segments _ hw => walk_mono hk segments hw) h

/-- Segments that name nothing lead nowhere else. -/
theorem walk_steady (t : FileTree) (directory : Location) : Target.Steady (t.walk directory) := by
  intro segments
  induction segments generalizing directory with
  | nil => rintro segment (rfl | rfl) <;> rfl
  | cons first rest ih =>
    intro segment h
    have hrest : ∀ directory, t.walk directory (rest ++ [segment]) = t.walk directory rest :=
      fun directory => ih directory segment h
    simp only [List.cons_append, walk, hrest]

/-! ## What a path finds -/

/-- The path names an entry of an existing directory, which may be there or not. -/
def Finds (t : FileTree) (path : String) (location : Location) : Prop :=
  ∃ target name, t.locate path = .ok target ∧ target.last = .name name ∧ target.slashed = false ∧
    name.utf8ByteSize ≤ 255 ∧ location = target.directory ++ [name]

theorem Finds.ne_nil {t : FileTree} {path : String} {location : Location}
    (h : t.Finds path location) : location ≠ [] := by
  obtain ⟨target, name, -, -, -, -, rfl⟩ := h
  simp

theorem Finds.mono {t t' : FileTree} (hk : KeepsDirectories t t') {path : String}
    {location : Location} (h : t.Finds path location) : t'.Finds path location := by
  obtain ⟨target, name, hl, h⟩ := h
  exact ⟨target, name, locate_mono hk hl, h⟩

theorem Finds.unique {t : FileTree} {path : String} {a b : Location} (ha : t.Finds path a)
    (hb : t.Finds path b) : a = b := by
  obtain ⟨target, name, hl, hn, -, -, rfl⟩ := ha
  obtain ⟨target', name', hl', hn', -, -, rfl⟩ := hb
  rw [hl] at hl'
  cases hl'
  rw [hn] at hn'
  cases hn'
  rfl

theorem Finds.ends {t : FileTree} {path : String} {location : Location} (h : t.Finds path location) :
    ∃ directory name, Target.Ends (t.walk []) path directory name ∧ location = directory ++ [name] := by
  obtain ⟨⟨directory, last, slashed⟩, name, hl, rfl, rfl, -, rfl⟩ := h
  exact ⟨directory, name, hl, rfl⟩

/-- The path beside a path finds an entry of the same directory, with the ending after the name. -/
theorem Finds.besides {t : FileTree} {path ending : String} {a b : Location}
    (he : '/' ∉ ending.toList) (ha : t.Finds path a) (hb : t.Finds (Path.besides path ending) b) :
    ∃ directory name, a = directory ++ [name] ∧ b = directory ++ [name ++ ending] := by
  obtain ⟨directory, name, hends, rfl⟩ := ha.ends
  obtain ⟨directory', name', hends', rfl⟩ := hb.ends
  obtain ⟨rfl, rfl⟩ := hends.besides (t.walk_steady []) he hends'
  exact ⟨_, _, rfl, rfl⟩

/-- A path and the path beside it never find the same entry. -/
theorem finds_besides_ne {t : FileTree} {path ending : String} {a b : Location}
    (he : '/' ∉ ending.toList) (hne : ending ≠ "") (ha : t.Finds path a)
    (hb : t.Finds (Path.besides path ending) b) : a ≠ b := by
  obtain ⟨directory, name, rfl, rfl⟩ := ha.besides he hb
  exact fun heq => Target.ne_append hne (List.singleton_inj.1 (List.append_cancel_left heq))

theorem read_eq_ok_iff {t : FileTree} {path : String} {bytes : ByteArray} :
    t.read path = .ok bytes ↔ ∃ location, t.Finds path location ∧
      t.get? location = some (.file bytes) := by
  constructor
  · intro h
    unfold read at h
    obtain ⟨target, hl, h⟩ := ok_of_bind h
    split at h
    · cases h
    · rename_i name hlast
      obtain ⟨entry, hc, h⟩ := ok_of_bind h
      obtain ⟨hs, hg⟩ := child_eq_ok_iff.1 hc
      split at h
      · cases h
      · cases h
      · split at h
        · cases h
        · rename_i hsl
          cases h
          exact ⟨_, ⟨target, name, hl, hlast, by simpa using hsl, hs, rfl⟩, hg⟩
  · rintro ⟨location, ⟨target, name, hl, hn, hsl, hs, rfl⟩, hg⟩
    unfold read
    rw [hl]
    simp only [bind, Except.bind, hn, child_eq_ok_iff.2 ⟨hs, hg⟩, hsl, Bool.false_eq_true, if_false]

/-- A file can be opened where the path finds no directory. -/
theorem opened_eq_ok_iff {t : FileTree} {path : String} {location : Location} :
    t.opened path = .ok location ↔ t.Finds path location ∧ t.get? location ≠ some .directory := by
  constructor
  · intro h
    unfold opened at h
    obtain ⟨target, hl, h⟩ := ok_of_bind h
    split at h
    · cases h
    · rename_i name hlast
      split at h
      · cases h
      · rename_i hsl
        obtain ⟨entry, hc, h⟩ := ok_of_bind h
        obtain ⟨hs, hg⟩ := child_eq_ok_iff.1 hc
        split at h
        · cases h
        · rename_i hne
          cases h
          refine ⟨⟨target, name, hl, hlast, by simpa using hsl, hs, rfl⟩, ?_⟩
          rw [hg]
          exact hne
  · rintro ⟨⟨target, name, hl, hn, hsl, hs, rfl⟩, hg⟩
    unfold opened
    rw [hl]
    simp only [bind, Except.bind, hn, child_eq_ok_iff.2 ⟨hs, rfl⟩, hsl, Bool.false_eq_true, if_false]

theorem rename_eq_ok {t t' : FileTree} {source destination : String}
    (h : t.rename source destination = .ok t') :
    ∃ old new bytes, t.Finds source old ∧ t.get? old = some (.file bytes) ∧
      t.Finds destination new ∧ t.get? new ≠ some .directory ∧
      t' = (t.erase old).put new (.file bytes) := by
  unfold rename at h
  obtain ⟨start, hl, h⟩ := ok_of_bind h
  obtain ⟨finish, hl', h⟩ := ok_of_bind h
  split at h
  · rename_i old new hold hnew
    obtain ⟨entry, hc, h⟩ := ok_of_bind h
    obtain ⟨hs, hg⟩ := child_eq_ok_iff.1 hc
    split at h
    · cases h
    · cases h
    · rename_i bytes
      obtain ⟨entry', hc', h⟩ := ok_of_bind h
      obtain ⟨hs', hg'⟩ := child_eq_ok_iff.1 hc'
      split at h
      · cases h
      · rename_i hsl
        simp only [Bool.or_eq_true, not_or, Bool.not_eq_true] at hsl
        split at h
        · cases h
        · rename_i hd
          cases h
          refine ⟨_, _, bytes, ⟨start, old, hl, hold, hsl.1, hs, rfl⟩, hg,
            ⟨finish, new, hl', hnew, hsl.2, hs', rfl⟩, ?_, rfl⟩
          rw [hg']
          simpa using hd
  · cases h

/-- A file can be moved to where no directory stands. -/
theorem rename_of_finds {t : FileTree} {source destination : String} {old new : Location}
    {bytes : ByteArray} (ho : t.Finds source old) (hg : t.get? old = some (.file bytes))
    (hn : t.Finds destination new) (hd : t.get? new ≠ some .directory) :
    t.rename source destination = .ok ((t.erase old).put new (.file bytes)) := by
  obtain ⟨start, first, hl, hf, hsl, hs, rfl⟩ := ho
  obtain ⟨finish, last, hl', hf', hsl', hs', rfl⟩ := hn
  have hne : ¬(t.get? (finish.directory ++ [last]) == some .directory) = true := by simpa using hd
  unfold rename
  rw [hl, hl']
  simp only [bind, Except.bind, hf, hf', child_eq_ok_iff.2 ⟨hs, hg⟩, child_eq_ok_iff.2 ⟨hs', rfl⟩, hsl,
    hsl', Bool.or_self, Bool.false_eq_true, if_false, if_neg hne]

/-- A file that a path finds can be removed. -/
theorem remove_of_finds {t : FileTree} {path : String} {location : Location} {bytes : ByteArray}
    (h : t.Finds path location) (hg : t.get? location = some (.file bytes)) :
    t.remove path = .ok (t.erase location) := by
  obtain ⟨target, name, hl, hn, hsl, hs, rfl⟩ := h
  unfold remove
  rw [hl]
  simp only [bind, Except.bind, hn, child_eq_ok_iff.2 ⟨hs, hg⟩, hsl, Bool.false_eq_true, if_false]

/-! ## Calls -/

theorem served_eq_ok {t t' : FileTree} {result : Except FileError FileTree}
    (h : t.served result = (.ok (), t')) : result = .ok t' := by
  cases result with
  | error e => cases h
  | ok next => cases h; rfl

theorem served_eq_error {t t' : FileTree} {result : Except FileError FileTree} {e : FileError}
    (h : t.served result = (.error e, t')) : result = .error e ∧ t' = t := by
  cases result with
  | error e' => cases h; exact ⟨rfl, rfl⟩
  | ok next => cases h

theorem put_put (t : FileTree) (location : Location) (entry entry' : Entry) :
    (t.put location entry).put location entry' = t.put location entry' := by
  simp [put, List.filter_filter]

/-- A file is written where the path finds no directory, and else nothing is. -/
theorem writeAndSync_eq (t : FileTree) (path : String) (bytes : ByteArray) :
    FileSystem.writeAndSync path bytes t = t.served (t.write path bytes) := by
  unfold FileSystem.writeAndSync write
  simp only [FileSystem.create, FileSystem.writeAll, FileSystem.sync]
  cases t.opened path with
  | error e => rfl
  | ok location =>
    show ((Except.ok (), (t.put location (.file .empty)).put location (.file bytes)) :
      Except FileError Unit × FileTree) = (.ok (), t.put location (.file bytes))
    rw [put_put]

theorem writeAndSync_eq_ok {t t' : FileTree} {path : String} {bytes : ByteArray}
    (h : FileSystem.writeAndSync path bytes t = (.ok (), t')) :
    ∃ location, t.Finds path location ∧ t.get? location ≠ some .directory ∧
      t' = t.put location (.file bytes) := by
  rw [writeAndSync_eq] at h
  have hw := served_eq_ok h
  unfold write at hw
  cases ho : t.opened path with
  | error e =>
    rw [ho] at hw
    cases hw
  | ok location =>
    rw [ho] at hw
    cases hw
    obtain ⟨hf, hg⟩ := opened_eq_ok_iff.1 ho
    exact ⟨location, hf, hg, rfl⟩

theorem writeAndSync_eq_error {t t' : FileTree} {path : String} {bytes : ByteArray} {e : FileError}
    (h : FileSystem.writeAndSync path bytes t = (.error e, t')) : t' = t := by
  rw [writeAndSync_eq] at h
  exact (served_eq_error h).2

theorem writeAndSync_of_finds {t : FileTree} {path : String} {location : Location}
    (h : t.Finds path location) (hg : t.get? location ≠ some .directory) (bytes : ByteArray) :
    FileSystem.writeAndSync path bytes t = (.ok (), t.put location (.file bytes)) := by
  rw [writeAndSync_eq, write, opened_eq_ok_iff.2 ⟨h, hg⟩]
  rfl

end LunchRush.FileTree
