import LunchRush.Proofs.Files.Atomicity
import LunchRush.Proofs.Files.Tree
/-!
# Trees are disks without links

Two systems of files are alike if related states answer every call in the same way and stay related
(`FileSystem.Alike`). A document is then saved in both with the same result (`Alike.save`). A disk whose files
have one name each, with neither links nor special files, is alike to the tree of its files as long as the
system refuses nothing, so a save of the tree is a save of the disk (`Mirrors.save`).
-/

namespace LunchRush

/-! ## Systems that are alike -/

/-- The answers are the same and the states are related. -/
def Agree {φ ψ α : Type} (R : φ → ψ → Prop) (x : α × φ) (y : α × ψ) : Prop := x.1 = y.1 ∧ R x.2 y.2

theorem Agree.states {φ ψ α : Type} {R : φ → ψ → Prop} {x : α × φ} {y : α × ψ} (h : Agree R x y) :
    ∃ answer a b, x = (answer, a) ∧ y = (answer, b) ∧ R a b :=
  ⟨x.1, x.2, y.2, rfl, Prod.ext h.1.symm rfl, h.2⟩

namespace FileSystem

variable {φ ψ : Type} [FileSystem φ] [FileSystem ψ]

/-- Related states answer every call in the same way. The states are related by `Open` while a file is open. -/
structure Alike (R : φ → ψ → Prop) (Open : Handle φ → Handle ψ → φ → ψ → Prop) : Prop where
  isDirectory : ∀ path a b, R a b → Agree R (isDirectory path a) (isDirectory path b)
  makeDirectory : ∀ path a b, R a b → Agree R (makeDirectory path a) (makeDirectory path b)
  create : ∀ path a b, R a b →
    (∃ e a' b', create path a = (.error e, a') ∧ create path b = (.error e, b') ∧ R a' b') ∨
      ∃ handle handle' a' b', create path a = (.ok handle, a') ∧ create path b = (.ok handle', b') ∧
        Open handle handle' a' b'
  writeAll : ∀ handle handle' bytes a b, Open handle handle' a b →
    Agree (Open handle handle') (writeAll handle bytes a) (writeAll handle' bytes b)
  sync : ∀ handle handle' a b, Open handle handle' a b → Agree R (sync handle a) (sync handle' b)
  close : ∀ handle handle' a b, Open handle handle' a b → R a b
  rename : ∀ source destination a b, R a b →
    Agree R (rename source destination a) (rename source destination b)
  remove : ∀ path a b, R a b → Agree R (remove path a) (remove path b)

namespace Alike

variable {R : φ → ψ → Prop} {Open : Handle φ → Handle ψ → φ → ψ → Prop} {a : φ} {b : ψ}

theorem unlessDirectory (alike : Alike R Open) (path : String) (e : FileError) (h : R a b) :
    Agree R (FileSystem.unlessDirectory path e a) (FileSystem.unlessDirectory path e b) := by
  obtain ⟨answer, a', b', ha, hb, hr⟩ := (alike.isDirectory path a b h).states
  unfold FileSystem.unlessDirectory
  rw [ha, hb]
  cases answer with
  | true => exact ⟨rfl, hr⟩
  | false => exact ⟨rfl, hr⟩

theorem ensureDirectory (alike : Alike R Open) (path : String) (h : R a b) :
    Agree R (FileSystem.ensureDirectory path a) (FileSystem.ensureDirectory path b) := by
  obtain ⟨answer, a', b', ha, hb, hr⟩ := (alike.makeDirectory path a b h).states
  unfold FileSystem.ensureDirectory
  rw [ha, hb]
  cases answer with
  | ok made => exact ⟨rfl, hr⟩
  | error e => exact alike.unlessDirectory path e hr

theorem makeDirectories (alike : Alike R Open) (fuel : Nat) : ∀ (path : String) (a : φ) (b : ψ), R a b →
    Agree R (FileSystem.makeDirectories fuel path a) (FileSystem.makeDirectories fuel path b) := by
  induction fuel with
  | zero => intro path a b h; exact ⟨rfl, h⟩
  | succ fuel ih =>
    intro path a b h
    obtain ⟨answer, a', b', ha, hb, hr⟩ := (alike.makeDirectory path a b h).states
    unfold FileSystem.makeDirectories
    split
    · exact ⟨rfl, h⟩
    · rw [ha, hb]
      cases answer with
      | ok made => exact ⟨rfl, hr⟩
      | error e =>
        cases e with
        | notFound =>
          dsimp only
          cases Path.parent? path with
          | none => exact ⟨rfl, hr⟩
          | some parent =>
            obtain ⟨answer, a'', b'', ha, hb, hr⟩ := (ih parent a' b' hr).states
            dsimp only
            rw [ha, hb]
            cases answer with
            | ok made => exact alike.ensureDirectory path hr
            | error e => exact ⟨rfl, hr⟩
        | _ => exact alike.unlessDirectory path _ hr

theorem writeAndSync (alike : Alike R Open) (path : String) (bytes : ByteArray) (h : R a b) :
    Agree R (FileSystem.writeAndSync path bytes a) (FileSystem.writeAndSync path bytes b) := by
  unfold FileSystem.writeAndSync
  rcases alike.create path a b h with ⟨e, a', b', he, he', hr⟩ | ⟨handle, handle', a', b', ho, ho', hopen⟩
  · rw [he, he']
    exact ⟨rfl, hr⟩
  · rw [ho, ho']
    obtain ⟨answer, a'', b'', ha, hb, hopen⟩ := (alike.writeAll handle handle' bytes a' b' hopen).states
    dsimp only
    rw [ha, hb]
    cases answer with
    | ok filled => exact alike.sync handle handle' a'' b'' hopen
    | error e => exact ⟨rfl, alike.close handle handle' a'' b'' hopen⟩

/-- A document is saved alike. -/
theorem save (alike : Alike R Open) (s : Store) (d : Document) (h : R a b) :
    Agree R (s.save d a) (s.save d b) := by
  have hparent : Agree R (s.makeParent a) (s.makeParent b) := by
    unfold Store.makeParent
    split
    · exact ⟨rfl, h⟩
    · rename_i parent _
      obtain ⟨answer, a', b', ha, hb, hr⟩ :=
        (alike.makeDirectories (parent.length + 1) parent a b h).states
      rw [ha, hb]
      cases answer with
      | ok made => exact ⟨rfl, hr⟩
      | error e => exact ⟨rfl, hr⟩
  have hdraft : ∀ a b, R a b → Agree R (s.writeDraft d.toYaml a) (s.writeDraft d.toYaml b) := by
    intro a b h
    obtain ⟨answer, a', b', ha, hb, hr⟩ := (alike.writeAndSync s.draft d.toYaml.toUTF8 h).states
    unfold Store.writeDraft
    rw [ha, hb]
    cases answer with
    | ok written => exact ⟨rfl, hr⟩
    | error e => exact ⟨rfl, hr⟩
  have hpublish : ∀ a b, R a b → Agree R (s.publish a) (s.publish b) := by
    intro a b h
    obtain ⟨answer, a', b', ha, hb, hr⟩ := (alike.rename s.draft s.path a b h).states
    unfold Store.publish
    rw [ha, hb]
    cases answer with
    | ok moved => exact ⟨rfl, hr⟩
    | error e => exact ⟨rfl, (alike.remove s.draft a' b' hr).2⟩
  unfold Store.save
  obtain ⟨answer, a₁, b₁, ha, hb, hr⟩ := hparent.states
  rw [ha, hb]
  cases answer with
  | error e => exact ⟨rfl, hr⟩
  | ok made =>
    obtain ⟨answer, a₂, b₂, ha, hb, hr⟩ := (hdraft a₁ b₁ hr).states
    dsimp only
    rw [ha, hb]
    cases answer with
    | error e => exact ⟨rfl, hr⟩
    | ok written =>
      obtain ⟨answer, a₃, b₃, ha, hb, hr⟩ := (hpublish a₂ b₂ hr).states
      dsimp only
      rw [ha, hb]
      cases answer with
      | error e => exact ⟨rfl, hr⟩
      | ok moved => exact ⟨rfl, hr⟩

end Alike

end FileSystem

/-! ## Disks without links -/

/-- What a disk holds at a location, and what the tree does. -/
inductive Shows (contents : Nat → ByteArray) : Option Inode → Option Entry → Prop
  | nothing : Shows contents none none
  | directory : Shows contents (some .directory) (some .directory)
  | file (number : Nat) : Shows contents (some (.file number)) (some (.file (contents number)))

theorem Shows.congr {contents contents' : Nat → ByteArray} {node : Option Inode}
    {entry : Option Entry} (h : Shows contents node entry)
    (hc : ∀ number, node = some (.file number) → contents' number = contents number) :
    Shows contents' node entry := by
  cases h with
  | nothing => exact .nothing
  | directory => exact .directory
  | file number =>
    rw [← hc number rfl]
    exact .file number

/-- The tree of the files of a disk. Each file has one name, there are neither links nor special files, and the
system refuses nothing. -/
structure Mirrors (disk : Disk) (t : FileTree) : Prop where
  unrefused : disk.fates = []
  shows : ∀ location, Shows disk.contents (disk.node? location) (t.get? location)
  alone : ∀ a b number, disk.node? a = some (.file number) → disk.node? b = some (.file number) → a = b

/-- An entry with the number of its file. -/
def Entry.node (number : Nat) : Entry → Inode
  | .file _ => .file number
  | .directory => .directory

namespace FileTree

/-- The number of an entry: how many stand before it. -/
def number (t : FileTree) (location : Location) : Nat := t.entries.findIdx (·.1 == location)

/-- The first entry of a location has its number. -/
theorem entries_number {t : FileTree} {location : Location} {entry : Entry}
    (h : t.entries.lookup location = some entry) :
    t.entries[t.number location]? = some (location, entry) := by
  obtain ⟨before, after, he, hb⟩ := List.lookup_eq_some_iff.1 h
  have hidx : t.number location = before.length := by
    unfold number
    rw [he, List.findIdx_append]
    have hnone : before.findIdx (·.1 == location) = before.length := by
      rw [List.findIdx_eq_length]
      intro x hx
      simpa [BEq.comm] using hb x hx
    rw [hnone]
    simp [List.findIdx_cons]
  rw [hidx, he]
  simp

/-- The disk that holds the files of a tree, each under its number. -/
def onDisk (t : FileTree) : Disk where
  nodes location := (t.entries.lookup location).map (·.node (t.number location))
  contents n := match t.entries[n]? with
    | some (_, .file bytes) => bytes
    | _ => .empty
  fresh := t.entries.length
  numbered := by
    intro location number h
    obtain ⟨entry, he, hn⟩ := Option.map_eq_some_iff.1 h
    cases entry with
    | directory => cases hn
    | file bytes =>
      cases hn
      exact (List.getElem?_eq_some_iff.1 (entries_number he)).1
  fates := []

end FileTree

/-- Every tree of files is that of some disk. -/
theorem mirrors_onDisk (t : FileTree) : Mirrors t.onDisk t := by
  have hfile {location : Location} {number : Nat} (h : t.onDisk.node? location = some (.file number)) :
      ∃ bytes, t.entries[number]? = some (location, .file bytes) := by
    cases location with
    | nil => cases h
    | cons name below =>
      obtain ⟨entry, he, hn⟩ := Option.map_eq_some_iff.1 h
      cases entry with
      | directory => cases hn
      | file bytes =>
        cases hn
        exact ⟨bytes, FileTree.entries_number he⟩
  refine ⟨rfl, fun location => ?_, fun a b number ha hb => ?_⟩
  · cases location with
    | nil => exact .directory
    | cons name below =>
      have hnode : t.onDisk.node? (name :: below) =
          (t.entries.lookup (name :: below)).map (·.node (t.number (name :: below))) := rfl
      have hget : t.get? (name :: below) = t.entries.lookup (name :: below) := rfl
      rw [hnode, hget]
      cases hl : t.entries.lookup (name :: below) with
      | none => exact .nothing
      | some entry =>
        cases entry with
        | directory => exact .directory
        | file bytes =>
          have hs : Shows t.onDisk.contents _ _ := .file (t.number (name :: below))
          have hbytes : t.onDisk.contents (t.number (name :: below)) = bytes := by
            dsimp only [FileTree.onDisk]
            rw [FileTree.entries_number hl]
          rw [hbytes] at hs
          exact hs
  · obtain ⟨bytes, hbytes⟩ := hfile ha
    obtain ⟨bytes', hbytes'⟩ := hfile hb
    cases hbytes.symm.trans hbytes'
    rfl

namespace Mirrors

variable {disk : Disk} {t : FileTree}

/-! ## Paths -/

theorem child_cases (h : Mirrors disk t) (directory : Location) (name : String) :
    (∃ e, disk.node?.child directory name = .error e ∧ t.child directory name = .error e) ∨
      ∃ node entry, disk.node?.child directory name = .ok node ∧ t.child directory name = .ok entry ∧
        disk.node? (directory ++ [name]) = node ∧ Shows disk.contents node entry := by
  unfold Nodes.child FileTree.child
  split
  · exact .inl ⟨_, rfl, rfl⟩
  · exact .inr ⟨_, _, rfl, rfl, rfl, h.shows _⟩

theorem walkWith_eq (h : Mirrors disk t) (follow : Location → List String → Except FileError Location)
    (segments : List String) : ∀ directory,
      disk.node?.walkWith follow directory segments = t.walk directory segments := by
  induction segments with
  | nil => intro _; rfl
  | cons segment rest ih =>
    intro directory
    unfold Nodes.walkWith FileTree.walk
    rw [ih, ih]
    congr 2
    rcases h.child_cases directory segment with ⟨e, he, he'⟩ | ⟨node, entry, hc, hc', -, hs⟩
    · rw [he, he']
    · rw [hc, hc']
      cases hs with
      | nothing => rfl
      | directory => exact ih _
      | file number => rfl

theorem walk_eq (h : Mirrors disk t) (links : Nat) (directory : Location) (segments : List String) :
    disk.node?.walk links directory segments = t.walk directory segments := by
  cases links with
  | zero => exact h.walkWith_eq _ segments directory
  | succ links => exact h.walkWith_eq _ segments directory

theorem locate_eq (h : Mirrors disk t) (path : String) : disk.node?.locate [] path = t.locate path := by
  have hwalk : disk.node?.walk Nodes.linksMax [] = t.walk [] := funext fun segments => h.walk_eq _ _ segments
  rw [Nodes.locate_root, hwalk]
  rfl

theorem link?_eq (h : Mirrors disk t) (target : Target) : disk.node?.link? target = none := by
  unfold Nodes.link?
  split
  · rfl
  · rename_i name _
    rcases h.child_cases target.directory name with ⟨e, he, -⟩ | ⟨node, entry, hc, -, -, hs⟩
    · rw [he]
    · rw [hc]
      cases hs with
      | nothing => rfl
      | directory => rfl
      | file number => rfl

theorem resolve_eq (h : Mirrors disk t) (path : String) : disk.node?.resolve path = t.locate path := by
  unfold Nodes.resolve
  rw [h.locate_eq]
  cases t.locate path with
  | error e => rfl
  | ok target => exact Nodes.settle_of_no_link (h.link?_eq target) _

/-! ## Changes -/

theorem congr (h : Mirrors disk t) {t' : FileTree} (ht : ∀ location, t'.get? location = t.get? location) :
    Mirrors disk t' :=
  ⟨h.unrefused, fun location => (ht location).symm ▸ h.shows location, h.alone⟩

/-- A name of no file that is given or taken away. -/
theorem setNode (h : Mirrors disk t) {location : Location} (hl : location ≠ []) {node : Option Inode}
    {entry : Option Entry} (hs : Shows disk.contents node entry) (hn : ∀ number, node ≠ some (.file number))
    {t' : FileTree} (ht : ∀ other, t'.get? other = if other = location then entry else t.get? other) :
    Mirrors (disk.setNode location node fun number he => absurd he (hn number)) t' := by
  have hnode := Disk.node?_setNode hl disk node fun number he => absurd he (hn number)
  refine ⟨h.unrefused, fun other => ?_, fun a b number ha hb => ?_⟩
  · rw [hnode, ht]
    split
    · exact hs
    · exact h.shows other
  · rw [hnode] at ha hb
    split at ha
    · exact absurd ha (hn number)
    · split at hb
      · exact absurd hb (hn number)
      · exact h.alone a b number ha hb

theorem addDirectory (h : Mirrors disk t) {location : Location} (hl : location ≠ []) :
    Mirrors (disk.addDirectory location) (t.put location .directory) :=
  h.setNode hl .directory (by simp) (FileTree.get?_put hl t .directory)

theorem remove (h : Mirrors disk t) {location : Location} (hl : location ≠ []) :
    Mirrors (disk.setNode location none nofun) (t.erase location) :=
  h.setNode hl .nothing (by simp) (FileTree.get?_erase hl t)

theorem addFile (h : Mirrors disk t) {location : Location} (hl : location ≠ []) :
    Mirrors (disk.addFile location) (t.put location (.file .empty)) := by
  have hnode := Disk.node?_addFile hl disk
  have hold {other : Location} {number : Nat} (ho : disk.node? other = some (.file number)) :
      number ≠ disk.fresh := Nat.ne_of_lt (Disk.lt_fresh ho)
  refine ⟨h.unrefused, fun other => ?_, fun a b number ha hb => ?_⟩
  · rw [hnode, FileTree.get?_put hl]
    split
    · have hempty : (disk.addFile location).contents disk.fresh = .empty := if_pos rfl
      rw [← hempty]
      exact .file disk.fresh
    · exact (h.shows other).congr fun number ho => if_neg (hold ho)
  · rw [hnode] at ha hb
    split at ha
    · cases ha
      split at hb
      · rename_i ha hb'
        rw [ha, hb']
      · exact absurd rfl (hold hb)
    · split at hb
      · cases hb
        exact absurd rfl (hold ha)
      · exact h.alone a b number ha hb

theorem fill (h : Mirrors disk t) {location : Location} {number : Nat}
    (hn : disk.node? location = some (.file number)) (bytes : ByteArray) :
    Mirrors (disk.fill number bytes) (t.put location (.file bytes)) := by
  have hl : location ≠ [] := by
    rintro rfl
    cases hn
  refine ⟨h.unrefused, fun other => ?_, fun a b n ha hb => ?_⟩
  · rw [disk.node?_fill, FileTree.get?_put hl]
    split
    · rename_i he
      have hs : Shows (disk.fill number bytes).contents _ _ := .file number
      rw [show (disk.fill number bytes).contents number = bytes from if_pos rfl] at hs
      rwa [he, hn]
    · rename_i he
      refine (h.shows other).congr fun n ho => if_neg ?_
      rintro rfl
      exact he (h.alone other location n ho hn)
  · rw [disk.node?_fill] at ha hb
    exact h.alone a b n ha hb

theorem move (h : Mirrors disk t) {old new : Location} {number : Nat} {bytes : ByteArray}
    (hn : disk.node? old = some (.file number)) (hb : disk.contents number = bytes) (hl : new ≠ [])
    (hne : old ≠ new) :
    Mirrors (disk.move old new) ((t.erase old).put new (.file bytes)) := by
  have hold : old ≠ [] := by
    rintro rfl
    cases hn
  have hnode := Disk.node?_move hold hl disk
  subst hb
  refine ⟨h.unrefused, fun other => ?_, fun a b n ha hb => ?_⟩
  · rw [hnode, FileTree.get?_put hl, FileTree.get?_erase hold, hn]
    split
    · rename_i he
      rw [he, if_neg hne]
      exact .nothing
    · split
      · exact .file number
      · exact h.shows other
  · rw [hnode] at ha hb
    split at ha
    · cases ha
    · split at hb
      · cases hb
      · split at ha
        · split at hb
          · rename_i ha' hb'
            rw [ha', hb']
          · rename_i hb' _ _
            exact absurd (h.alone b old n hb ha) hb'
        · split at hb
          · rename_i ha' _ _ _
            exact absurd (h.alone a old n ha hb) ha'
          · exact h.alone a b n ha hb

/-! ## Calls -/

/-- An operation of the disk that succeeds where that of the tree does, and fails for the same reason. -/
theorem served (h : Mirrors disk t) {operation : Disk → Except FileError (Unit × Disk)}
    {result : Except FileError FileTree}
    (ho : (∃ e, operation disk = .error e ∧ result = .error e) ∨
      ∃ disk' t', operation disk = .ok ((), disk') ∧ result = .ok t' ∧ Mirrors disk' t') :
    Agree Mirrors (Disk.served operation disk) (t.served result) := by
  unfold Disk.served FileTree.served
  rw [Disk.next_of_unrefused h.unrefused]
  rcases ho with ⟨e, he, rfl⟩ | ⟨disk', t', he, rfl, h'⟩
  · dsimp only
    rw [he]
    exact ⟨rfl, h⟩
  · dsimp only
    rw [he]
    exact ⟨rfl, h'⟩

theorem isDirectory (h : Mirrors disk t) (path : String) :
    Agree Mirrors (FileSystem.isDirectory path disk) (FileSystem.isDirectory path t) := by
  have hleads : disk.leadsToDirectory path = t.isDirectory path := by
    unfold Disk.leadsToDirectory FileTree.isDirectory
    rw [h.resolve_eq]
    cases t.locate path with
    | error e => rfl
    | ok target =>
      obtain ⟨directory, last, slashed⟩ := target
      cases last with
      | reached => rfl
      | name s =>
        dsimp only
        have hs := h.shows (directory ++ [s])
        generalize disk.node? (directory ++ [s]) = node at hs ⊢
        generalize t.get? (directory ++ [s]) = entry at hs ⊢
        cases hs with
        | nothing => rfl
        | directory => rfl
        | file number => rfl
  have hcall : FileSystem.isDirectory path disk =
      (disk.next.1 == .served && disk.leadsToDirectory path, disk.next.2) := rfl
  rw [hcall, Disk.next_of_unrefused h.unrefused, hleads]
  exact ⟨rfl, h⟩

theorem makeDirectory (h : Mirrors disk t) (path : String) :
    Agree Mirrors (FileSystem.makeDirectory path disk) (FileSystem.makeDirectory path t) := by
  refine h.served ?_
  unfold Disk.madeDirectory FileTree.makeDirectory
  rw [h.locate_eq]
  cases t.locate path with
  | error e => exact .inl ⟨e, rfl, rfl⟩
  | ok target =>
    obtain ⟨directory, last, slashed⟩ := target
    cases last with
    | reached => exact .inl ⟨_, rfl, rfl⟩
    | name s =>
      simp only [bind, Except.bind]
      rcases h.child_cases directory s with ⟨e, he, he'⟩ | ⟨node, entry, hc, hc', -, hs⟩
      · rw [he, he']
        exact .inl ⟨e, rfl, rfl⟩
      · rw [hc, hc']
        cases hs with
        | nothing => exact .inr ⟨_, _, rfl, rfl, h.addDirectory (by simp)⟩
        | directory => exact .inl ⟨_, rfl, rfl⟩
        | file number => exact .inl ⟨_, rfl, rfl⟩

/-- A file moves to the place of a file; the disk leaves it alone if that is the file itself. -/
theorem replaced (h : Mirrors disk t) {old new : Location} {number number' : Nat}
    (hold : disk.node? old = some (.file number)) (hnew : disk.node? new = some (.file number')) :
    ∃ disk' t', (if Disk.isSameFile (.file number) (some (.file number')) = true then .ok ((), disk)
        else .ok ((), disk.move old new) : Except FileError (Unit × Disk)) = .ok ((), disk') ∧
      (.ok ((t.erase old).put new (.file (disk.contents number))) : Except FileError FileTree) = .ok t' ∧
      Mirrors disk' t' := by
  have hl : new ≠ [] := by
    rintro rfl
    cases hnew
  by_cases he : number = number'
  · subst he
    -- a file of one name is moved to itself, so the disk is left alone and the tree gets its entry back
    obtain rfl := h.alone old new number hold hnew
    refine ⟨disk, _, if_pos (by simp [Disk.isSameFile]), rfl, h.congr fun other => ?_⟩
    rw [FileTree.get?_put hl, FileTree.get?_erase hl]
    split
    · rename_i ho
      have hs := h.shows old
      rw [hold] at hs
      rw [ho]
      generalize t.get? old = entry at hs
      cases hs with
      | file => rfl
    · rfl
  · refine ⟨_, _, if_neg (by simpa [Disk.isSameFile] using he), rfl, h.move hold rfl hl ?_⟩
    rintro rfl
    rw [hold] at hnew
    cases hnew
    exact he rfl

theorem rename (h : Mirrors disk t) (source destination : String) :
    Agree Mirrors (FileSystem.rename source destination disk) (FileSystem.rename source destination t) := by
  refine h.served ?_
  unfold Disk.renamed FileTree.rename
  rw [h.locate_eq, h.locate_eq]
  cases t.locate source with
  | error e => exact .inl ⟨e, rfl, rfl⟩
  | ok start =>
    cases t.locate destination with
    | error e => exact .inl ⟨e, rfl, rfl⟩
    | ok finish =>
      obtain ⟨directory, last, slashed⟩ := start
      obtain ⟨directory', last', slashed'⟩ := finish
      cases last with
      | reached => exact .inl ⟨_, rfl, rfl⟩
      | name old =>
        cases last' with
        | reached => exact .inl ⟨_, rfl, rfl⟩
        | name new =>
          simp only [bind, Except.bind]
          rcases h.child_cases directory old with ⟨e, he, he'⟩ | ⟨node, entry, hc, hc', hold, hs⟩
          · rw [he, he']
            exact .inl ⟨e, rfl, rfl⟩
          · rw [hc, hc']
            cases hs with
            | nothing => exact .inl ⟨_, rfl, rfl⟩
            | directory => exact .inl ⟨_, rfl, rfl⟩
            | file number =>
              dsimp only
              rcases h.child_cases directory' new with ⟨e, he, he'⟩ | ⟨node, entry, hc, hc', hnew, hs⟩
              · rw [he, he']
                exact .inl ⟨e, rfl, rfl⟩
              · rw [hc, hc']
                dsimp only
                split
                · exact .inl ⟨_, rfl, rfl⟩
                · cases hs with
                  | directory => exact .inl ⟨_, rfl, rfl⟩
                  | nothing =>
                    refine .inr ⟨_, _, rfl, rfl, h.move hold rfl (by simp) fun he => ?_⟩
                    rw [he, hnew] at hold
                    cases hold
                  | file number' => exact .inr (h.replaced hold hnew)

theorem removed (h : Mirrors disk t) (path : String) :
    Agree Mirrors (FileSystem.remove path disk) (FileSystem.remove path t) := by
  refine h.served ?_
  unfold Disk.removed FileTree.remove
  rw [h.locate_eq]
  cases t.locate path with
  | error e => exact .inl ⟨e, rfl, rfl⟩
  | ok target =>
    obtain ⟨directory, last, slashed⟩ := target
    cases last with
    | reached => exact .inl ⟨_, rfl, rfl⟩
    | name s =>
      simp only [bind, Except.bind]
      rcases h.child_cases directory s with ⟨e, he, he'⟩ | ⟨node, entry, hc, hc', -, hs⟩
      · rw [he, he']
        exact .inl ⟨e, rfl, rfl⟩
      · rw [hc, hc']
        cases hs with
        | nothing => exact .inl ⟨_, rfl, rfl⟩
        | directory => exact .inl ⟨_, rfl, rfl⟩
        | file number =>
          dsimp only
          split
          · exact .inl ⟨_, rfl, rfl⟩
          · exact .inr ⟨_, _, rfl, rfl, h.remove (by simp)⟩

/-- The tree and the disk while a file is open, which the tree knows by its place. -/
def Open (handle : Option Nat) (location : Location) (disk : Disk) (t : FileTree) : Prop :=
  Mirrors disk t ∧ ∃ number, handle = some number ∧ disk.node? location = some (.file number)

theorem create (h : Mirrors disk t) (path : String) :
    (∃ e a' b', FileSystem.create path disk = (.error e, a') ∧ FileSystem.create path t = (.error e, b') ∧
        Mirrors a' b') ∨
      ∃ handle location a' b', FileSystem.create path disk = (.ok handle, a') ∧
        FileSystem.create path t = (.ok location, b') ∧ Open handle location a' b' := by
  have hopened : (∃ e, disk.opened path = .error e ∧ t.opened path = .error e) ∨
      ∃ handle location disk', disk.opened path = .ok (handle, disk') ∧ t.opened path = .ok location ∧
        Open handle location disk' (t.put location (.file .empty)) := by
    unfold Disk.opened FileTree.opened
    rw [h.resolve_eq]
    cases t.locate path with
    | error e => exact .inl ⟨e, rfl, rfl⟩
    | ok target =>
      obtain ⟨directory, last, slashed⟩ := target
      cases last with
      | reached => exact .inl ⟨_, rfl, rfl⟩
      | name s =>
        simp only [bind, Except.bind]
        split
        · exact .inl ⟨_, rfl, rfl⟩
        · rcases h.child_cases directory s with ⟨e, he, he'⟩ | ⟨node, entry, hc, hc', hn, hs⟩
          · rw [he, he']
            exact .inl ⟨e, rfl, rfl⟩
          · rw [hc, hc']
            have hl : directory ++ [s] ≠ [] := by simp
            cases hs with
            | nothing =>
              refine .inr ⟨_, _, _, rfl, rfl, h.addFile hl, _, rfl, ?_⟩
              rw [Disk.node?_addFile hl, if_pos rfl]
            | directory => exact .inl ⟨_, rfl, rfl⟩
            | file number =>
              exact .inr ⟨_, _, _, rfl, rfl, h.fill hn .empty, _, rfl, (disk.node?_fill ..).trans hn⟩
  have hcreate : FileSystem.create path disk = Disk.served (·.opened path) disk := rfl
  rw [hcreate]
  rcases hopened with ⟨e, he, he'⟩ | ⟨handle, location, disk', ho, ho', hopen⟩
  · have hserved : Disk.served (·.opened path) disk = (.error e, disk) := by
      unfold Disk.served
      rw [Disk.next_of_unrefused h.unrefused]
      dsimp only
      rw [he]
    have htree : FileSystem.create path t = (.error e, t) := by
      dsimp only [FileSystem.create]
      rw [he']
    exact .inl ⟨e, _, _, hserved, htree, h⟩
  · have htree : FileSystem.create path t = (.ok location, t.put location (.file .empty)) := by
      dsimp only [FileSystem.create]
      rw [ho']
    exact .inr ⟨handle, location, _, _, Disk.served_of_unrefused h.unrefused ho, htree, hopen⟩

/-- A disk without links and the tree of its files are alike. -/
theorem alike : FileSystem.Alike Mirrors Open where
  isDirectory path _ _ h := h.isDirectory path
  makeDirectory path _ _ h := h.makeDirectory path
  create path _ _ h := h.create path
  writeAll := by
    rintro handle location bytes disk t ⟨h, number, rfl, hn⟩
    have hwrite : FileSystem.writeAll (some number) bytes disk = (.ok (), disk.fill number bytes) :=
      Disk.writeAll_of_unrefused h.unrefused (some number) bytes
    rw [hwrite]
    exact ⟨rfl, h.fill hn bytes, number, rfl, (disk.node?_fill ..).trans hn⟩
  sync := by
    rintro handle location disk t ⟨h, -⟩
    have hsync : FileSystem.sync handle disk = (.ok (), disk) := Disk.served_of_unrefused h.unrefused rfl
    rw [hsync]
    exact ⟨rfl, h⟩
  close _ _ _ _ h := h.1
  rename source destination _ _ h := h.rename source destination
  remove path _ _ h := h.removed path

/-- To save a document in the tree is to save it on the disk. -/
theorem save (h : Mirrors disk t) (s : Store) (d : Document) :
    (s.save d disk).1 = (s.save d t).1 ∧ Mirrors (s.save d disk).2 (s.save d t).2 := alike.save s d h

/-- What is read there is read here. -/
theorem read (h : Mirrors disk t) (path : String) : disk.read path = t.read path := by
  unfold Disk.read FileTree.read
  rw [h.resolve_eq]
  cases t.locate path with
  | error e => rfl
  | ok target =>
    obtain ⟨directory, last, slashed⟩ := target
    cases last with
    | reached => rfl
    | name s =>
      simp only [bind, Except.bind]
      rcases h.child_cases directory s with ⟨e, he, he'⟩ | ⟨node, entry, hc, hc', -, hs⟩
      · rw [he, he']
      · rw [hc, hc']
        cases hs with
        | nothing => rfl
        | directory => rfl
        | file number => rfl

end Mirrors

end LunchRush
