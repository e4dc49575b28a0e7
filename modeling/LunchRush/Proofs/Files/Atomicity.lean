import LunchRush.Files.Store
import LunchRush.Proofs.Files.Disk
/-!
# What a save does to a disk

Whatever stands on a disk, links and files of several names among it, and whatever calls the system refuses: a
save that fails changes no file but the draft and the file that the draft leads to. Where the draft is an
ordinary file of one name, or is not there, a save that succeeds puts the whole new text at the place of the
document, leaves no draft and changes nothing else (`save_replaces_or_keeps`). Where the draft leads elsewhere,
the bytes go there.
-/

namespace LunchRush

namespace Disk

variable {disk disk' : Disk}

/-! ## Calls -/

/-- A call is refused or fails and changes nothing, or its operation is done. -/
theorem served_cases {α : Type} (operation : Disk → Except FileError (α × Disk)) (disk : Disk) :
    (∃ e, served operation disk = (.error e, disk.next.2)) ∨
      ∃ a disk', operation disk.next.2 = .ok (a, disk') ∧ served operation disk = (.ok a, disk') := by
  unfold served
  rcases disk.next with ⟨_ | ⟨e, written⟩, later⟩
  · dsimp only
    cases operation later with
    | error e => exact .inl ⟨e, rfl⟩
    | ok result => exact .inr ⟨result.1, result.2, rfl, rfl⟩
  · exact .inl ⟨e, rfl⟩

/-- A call that fails was refused, or its operation cannot be done. -/
theorem served_error {α : Type} {operation : Disk → Except FileError (α × Disk)} {e : FileError}
    (h : served operation disk = (.error e, disk')) : disk' = disk.next.2 ∧
      ((∃ reason written, disk.next.1 = .refused reason written) ∨
        operation disk.next.2 = .error e) := by
  unfold served at h
  generalize disk.next = next at h ⊢
  obtain ⟨_ | ⟨reason, written⟩, later⟩ := next
  · dsimp only at h
    split at h
    · cases h
    · rename_i he
      cases h
      exact ⟨rfl, .inr he⟩
  · cases h
    exact ⟨rfl, .inl ⟨_, _, rfl⟩⟩

theorem next_of_unrefused (h : disk.fates = []) : disk.next = (.served, disk) := by
  cases disk
  subst h
  rfl

theorem served_of_unrefused {α : Type} {operation : Disk → Except FileError (α × Disk)} {a : α}
    (h : disk.fates = []) (ho : operation disk = .ok (a, disk')) :
    served operation disk = (.ok a, disk') := by
  unfold served
  rw [next_of_unrefused h]
  dsimp only
  rw [ho]

theorem writeAll_of_unrefused (h : disk.fates = []) (handle : Option Nat) (bytes : ByteArray) :
    writeAll handle bytes disk = (.ok (), disk.fillHandle bytes handle) := by
  unfold writeAll
  rw [next_of_unrefused h]

theorem fates_fillHandle (disk : Disk) (bytes : ByteArray) (handle : Option Nat) :
    (disk.fillHandle bytes handle).fates = disk.fates := by
  cases handle <;> rfl

/-! ## Directories that are made -/

/-- The second disk has some more directories and else is the first. -/
structure AddsDirectories (disk disk' : Disk) : Prop where
  nodes : ∀ location, disk'.node? location = disk.node? location ∨
    (disk.node? location = none ∧ disk'.node? location = some .directory)
  contents : disk'.contents = disk.contents
  fresh : disk'.fresh = disk.fresh

theorem AddsDirectories.refl (disk : Disk) : AddsDirectories disk disk := ⟨fun _ => .inl rfl, rfl, rfl⟩

theorem AddsDirectories.next (h : AddsDirectories disk disk') : AddsDirectories disk disk'.next.2 :=
  ⟨h.nodes, h.contents, h.fresh⟩

theorem AddsDirectories.addDirectory (h : AddsDirectories disk disk') {location : Location}
    (hl : location ≠ []) (hn : disk'.node? location = none) :
    AddsDirectories disk (disk'.addDirectory location) := by
  refine ⟨fun other => ?_, h.contents, h.fresh⟩
  rw [Disk.addDirectory, node?_setNode hl]
  split
  · rename_i he
    subst he
    right
    rcases h.nodes other with hsame | ⟨hnone, hdirectory⟩
    · exact ⟨hsame.symm.trans hn, rfl⟩
    · rw [hn] at hdirectory
      cases hdirectory
  · exact h.nodes other

theorem AddsDirectories.makeDirectories (h : AddsDirectories disk disk') (fuel : Nat) (path : String) :
    AddsDirectories disk (FileSystem.makeDirectories fuel path disk').2 := by
  refine FileSystem.makeDirectories_keeps (P := AddsDirectories disk) ?_ ?_ fuel path disk' h
  · intro path files h
    show AddsDirectories disk (served (·.madeDirectory path) files).2
    rcases served_cases (·.madeDirectory path) files with ⟨e, he⟩ | ⟨u, made, hm, he⟩
    · rw [he]
      exact h.next
    · rw [he]
      obtain ⟨location, hl, hn, rfl⟩ := madeDirectory_eq_ok hm
      exact h.next.addDirectory hl hn
  · exact fun path files h => h.next

theorem AddsDirectories.file_iff (h : AddsDirectories disk disk') (location : Location) (number : Nat) :
    disk'.node? location = some (.file number) ↔ disk.node? location = some (.file number) := by
  rcases h.nodes location with hsame | ⟨hnone, hdirectory⟩
  · rw [hsame]
  · rw [hnone, hdirectory]
    simp

/-! ## A draft that is written -/

/-- The disk after some bytes were written at a place where nothing stood, or a file or something special. -/
structure Wrote (disk : Disk) (location : Location) (bytes : ByteArray) (disk' : Disk) : Prop where
  here : disk'.node? location = (disk.node? location).or (some (.file disk.fresh))
  elsewhere : ∀ other, other ≠ location → disk'.node? other = disk.node? other
  kept : ∀ number, disk'.node? location ≠ some (.file number) →
    disk'.contents number = disk.contents number
  filled : ∀ number, disk'.node? location = some (.file number) → disk'.contents number = bytes

theorem Wrote.next {location : Location} {bytes : ByteArray} (h : disk.Wrote location bytes disk') :
    disk.Wrote location bytes disk'.next.2 := ⟨h.here, h.elsewhere, h.kept, h.filled⟩

theorem Wrote.of_next {location : Location} {bytes : ByteArray}
    (h : disk.next.2.Wrote location bytes disk') : disk.Wrote location bytes disk' :=
  ⟨h.here, h.elsewhere, h.kept, h.filled⟩

theorem Wrote.fillHandle {location : Location} {bytes : ByteArray} (h : disk.Wrote location bytes disk')
    {handle : Option Nat} (hh : ∀ number, disk'.node? location = some (.file number) ↔ handle = some number)
    (written : ByteArray) : disk.Wrote location written (disk'.fillHandle written handle) := by
  cases handle with
  | none => exact ⟨h.here, h.elsewhere, h.kept, fun number hn => nomatch (hh number).1 hn⟩
  | some held =>
    have hheld := (hh held).2 rfl
    refine ⟨h.here, h.elsewhere, fun number hn => ?_, fun number hn => ?_⟩
    · have hne : number ≠ held := by
        rintro rfl
        exact hn hheld
      exact (if_neg hne).trans (h.kept number hn)
    · obtain rfl : held = number := Option.some.inj ((hh number).1 hn)
      exact if_pos rfl

/-- Only files come into being where bytes are written. -/
theorem Wrote.node?_iff {location : Location} {bytes : ByteArray} (h : disk.Wrote location bytes disk')
    {node : Inode} (hn : ∀ number, node ≠ .file number) (other : Location) :
    disk'.node? other = some node ↔ disk.node? other = some node := by
  by_cases he : other = location
  · subst he
    rw [h.here]
    cases disk.node? other with
    | none => simpa using (hn disk.fresh).symm
    | some old => rfl
  · rw [h.elsewhere other he]

theorem Wrote.keepsPassages {location : Location} {bytes : ByteArray}
    (h : disk.Wrote location bytes disk') : disk.node?.KeepsPassages disk'.node? :=
  ⟨fun other => (h.node?_iff (by simp) other).2, fun other _ => (h.node?_iff (by simp) other).2⟩

theorem Wrote.addsNoPassages {location : Location} {bytes : ByteArray}
    (h : disk.Wrote location bytes disk') : disk'.node?.KeepsPassages disk.node? :=
  ⟨fun other => (h.node?_iff (by simp) other).1, fun other _ => (h.node?_iff (by simp) other).1⟩

/-- A file that moves to a place where neither a directory nor a link stands is in nobody's way. -/
theorem keepsPassages_move {old new : Location} {number : Nat} (hold : old ≠ []) (hnew : new ≠ [])
    (hf : disk.node? old = some (.file number)) (hd : disk.node? new ≠ some .directory)
    (hlink : ∀ path, disk.node? new ≠ some (.link path)) :
    disk.node?.KeepsPassages (disk.move old new).node? := by
  have hstays {location : Location} {node : Inode} (hn : disk.node? location = some node)
      (hnew' : disk.node? new ≠ some node) (hfile : some node ≠ some (.file number)) :
      (disk.move old new).node? location = some node := by
    rw [node?_move hold hnew, if_neg, if_neg]
    · exact hn
    · rintro rfl
      exact hnew' hn
    · rintro rfl
      exact hfile (hn.symm.trans hf)
  exact ⟨fun location hl => hstays hl hd (by simp), fun location path hl => hstays hl (hlink path) (by simp)⟩

/-- What is opened is empty until it is written to. -/
theorem wrote_opened {path : String} {handle : Option Nat} (h : disk.opened path = .ok (handle, disk')) :
    ∃ directory name, disk.node?.LeadsTo path (directory ++ [name]) ∧ name.utf8ByteSize ≤ 255 ∧
      disk.node? (directory ++ [name]) ≠ some .directory ∧
      (∀ other, disk.node? (directory ++ [name]) ≠ some (.link other)) ∧
      disk.Wrote (directory ++ [name]) .empty disk' ∧
      ∀ number, disk'.node? (directory ++ [name]) = some (.file number) ↔ handle = some number := by
  obtain ⟨directory, name, hleads, hs, hcases⟩ := opened_eq_ok h
  have hne : directory ++ [name] ≠ [] := by simp
  refine ⟨directory, name, hleads, hs, ?_⟩
  rcases hcases with ⟨hn, rfl, rfl⟩ | ⟨number, hn, rfl, rfl⟩ | ⟨hn, rfl, rfl⟩
  · have hhere : (disk.addFile (directory ++ [name])).node? (directory ++ [name]) =
        some (.file disk.fresh) := by rw [node?_addFile hne, if_pos rfl]
    refine ⟨by simp [hn], by simp [hn], ⟨by rw [hhere, hn]; rfl, ?_, ?_, ?_⟩, ?_⟩
    · intro other ho
      rw [node?_addFile hne, if_neg ho]
    · intro number ho
      rw [hhere] at ho
      refine if_neg ?_
      rintro rfl
      exact ho rfl
    · intro number ho
      rw [hhere] at ho
      cases ho
      exact if_pos rfl
    · intro number
      rw [hhere]
      simp
  · have hhere := (disk.node?_fill number .empty (directory ++ [name])).trans hn
    refine ⟨by simp [hn], by simp [hn], ⟨by rw [hhere, hn]; rfl, ?_, ?_, ?_⟩, ?_⟩
    · intro other _
      exact node?_fill ..
    · intro other ho
      rw [hhere] at ho
      refine if_neg ?_
      rintro rfl
      exact ho rfl
    · intro other ho
      rw [hhere] at ho
      cases ho
      exact if_pos rfl
    · intro other
      rw [hhere]
      simp
  · refine ⟨by simp [hn], by simp [hn], ⟨by rw [hn]; rfl, fun _ _ => rfl, fun _ _ => rfl, ?_⟩, ?_⟩
    · intro number ho
      rw [hn] at ho
      cases ho
    · intro number
      rw [hn]
      simp

/-- Bytes that are written into an opened file get there, or part of them does. -/
theorem Wrote.writeAll {location : Location} {before bytes : ByteArray} {opened : Disk} {handle : Option Nat}
    (h : disk.Wrote location before opened)
    (hh : ∀ number, opened.node? location = some (.file number) ↔ handle = some number)
    {result : Except FileError Unit} (hw : FileSystem.writeAll handle bytes opened = (result, disk')) :
    ∃ written, disk.Wrote location written disk' ∧ (result = .ok () → written = bytes) := by
  replace hw : Disk.writeAll handle bytes opened = (result, disk') := hw
  have hlater := h.next
  have hhlater : ∀ number, opened.next.2.node? location = some (.file number) ↔ handle = some number := hh
  unfold Disk.writeAll at hw
  generalize opened.next = next at hw hlater hhlater
  obtain ⟨_ | ⟨e, count⟩, later⟩ := next
  · cases hw
    exact ⟨bytes, hlater.fillHandle hhlater bytes, fun _ => rfl⟩
  · cases hw
    exact ⟨bytes.extract 0 count, hlater.fillHandle hhlater _, nofun⟩

/-- A file that is written was opened at the place to which the path leads; where the call fails, part of the
bytes may have got there. -/
theorem writeAndSync_drafts {path : String} {bytes : ByteArray} {result : Except FileError Unit}
    (h : FileSystem.writeAndSync path bytes disk = (result, disk')) :
    (disk' = disk.next.2 ∧ ∃ e, result = .error e) ∨
    ∃ directory name written, disk.node?.LeadsTo path (directory ++ [name]) ∧ name.utf8ByteSize ≤ 255 ∧
      disk.node? (directory ++ [name]) ≠ some .directory ∧
      (∀ other, disk.node? (directory ++ [name]) ≠ some (.link other)) ∧
      disk.Wrote (directory ++ [name]) written disk' ∧ (result = .ok () → written = bytes) := by
  have hcreate : FileSystem.create path disk = served (·.opened path) disk := rfl
  unfold FileSystem.writeAndSync at h
  rw [hcreate] at h
  rcases served_cases (·.opened path) disk with ⟨e, he⟩ | ⟨handle, opened, ho, he⟩
  · rw [he] at h
    cases h
    exact .inl ⟨rfl, e, rfl⟩
  · rw [he] at h
    obtain ⟨directory, name, hleads, hs, hd, hlink, hwrote, hhandle⟩ := wrote_opened ho
    replace hwrote := hwrote.of_next
    refine .inr ⟨directory, name, ?_⟩
    dsimp only at h
    split at h
    · rename_i e failed hw
      cases h
      obtain ⟨written, hwritten, -⟩ := hwrote.writeAll hhandle hw
      exact ⟨written, hleads, hs, hd, hlink, hwritten, nofun⟩
    · rename_i filled hw
      obtain ⟨written, hwritten, hall⟩ := hwrote.writeAll hhandle hw
      refine ⟨written, hleads, hs, hd, hlink, ?_, fun _ => hall rfl⟩
      replace h : served (fun disk => .ok ((), disk)) filled = (result, disk') := h
      rcases served_cases (fun disk => .ok ((), disk)) filled with ⟨e, hsync⟩ | ⟨u, synced, hsync, hsynced⟩
      · rw [hsync] at h
        cases h
        exact hwritten.next
      · cases hsync
        rw [hsynced] at h
        cases h
        exact hwritten.next

/-! ## Disks that are written down -/

/-- Whether a node is no file, or one of the first files. -/
def isNumberedBelow (count : Nat) : Inode → Bool
  | .file number => number < count
  | _ => true

/-- A disk of some names and some files. -/
def ofNames (names : List (Location × Inode)) (contents : List ByteArray) (fates : List Fate) : Disk where
  nodes location := (names.lookup location).filter (isNumberedBelow contents.length)
  contents number := contents.getD number .empty
  fresh := contents.length
  numbered := by
    intro location number h
    have hbelow := (Option.filter_eq_some_iff.1 h).2
    simpa [isNumberedBelow] using hbelow
  fates := fates

/-! ## What is left alone -/

/-- A regular file stands at the location and has these bytes. -/
def Holds (disk : Disk) (location : Location) (bytes : ByteArray) : Prop :=
  ∃ number, disk.node? location = some (.file number) ∧ disk.contents number = bytes

/-- The path names the location, or leads there, or leads to the file that stands there under another name. -/
def Touches (disk : Disk) (path : String) (location : Location) : Prop :=
  disk.node?.Names path location ∨ disk.node?.LeadsTo path location ∨
    ∃ number, disk.node?.LeadsToFile path number ∧ disk.node? location = some (.file number)

/-- Nothing stands at the location, or a file that has no other name. -/
def Unshared (disk : Disk) (location : Location) : Prop :=
  disk.node? location = none ∨ ∃ number, disk.node? location = some (.file number) ∧
    ∀ other, disk.node? other = some (.file number) → other = location

/-- What stands at the location is as before, a file to its last byte; where nothing stood there may be a
directory now. -/
structure Spares (disk disk' : Disk) (location : Location) : Prop where
  node : disk'.node? location = disk.node? location ∨
    (disk.node? location = none ∧ disk'.node? location = some .directory)
  holds : ∀ bytes, disk'.Holds location bytes ↔ disk.Holds location bytes

theorem Spares.trans {disk'' : Disk} {location : Location} (h : disk.Spares disk' location)
    (h' : disk'.Spares disk'' location) : disk.Spares disk'' location := by
  refine ⟨?_, fun bytes => (h'.holds bytes).trans (h.holds bytes)⟩
  rcases h'.node with hsame | ⟨hnone, hdirectory⟩
  · rw [hsame]
    exact h.node
  · rcases h.node with hsame | ⟨hnone', hdirectory'⟩
    · exact .inr ⟨hsame ▸ hnone, hdirectory⟩
    · exact .inr ⟨hnone', hdirectory⟩

theorem spares_of_node {location : Location} (hn : disk'.node? location = disk.node? location)
    (hc : ∀ number, disk.node? location = some (.file number) →
      disk'.contents number = disk.contents number) : disk.Spares disk' location := by
  refine ⟨.inl hn, fun bytes => ?_⟩
  constructor
  · rintro ⟨number, hf, rfl⟩
    rw [hn] at hf
    exact ⟨number, hf, (hc number hf).symm⟩
  · rintro ⟨number, hf, rfl⟩
    exact ⟨number, hn.trans hf, hc number hf⟩

theorem AddsDirectories.spares (h : AddsDirectories disk disk') (location : Location) :
    disk.Spares disk' location := by
  refine ⟨h.nodes location, fun bytes => ?_⟩
  unfold Holds
  simp only [h.file_iff, h.contents]

/-- Only what a path touches is changed by writing where it leads. -/
theorem Wrote.spares {path : String} {spot location : Location} {bytes : ByteArray}
    (h : disk.Wrote spot bytes disk') (hl : disk.node?.LeadsTo path spot) (ht : ¬disk.Touches path location) :
    disk.Spares disk' location := by
  have hne : location ≠ spot := by
    rintro rfl
    exact ht (.inr (.inl hl))
  refine spares_of_node (h.elsewhere location hne) fun number hf => h.kept number fun hspot => ?_
  rw [h.here] at hspot
  cases hnode : disk.node? spot with
  | none =>
    -- the file at the spot is new, and the other one is not
    rw [hnode] at hspot
    cases hspot
    exact Nat.lt_irrefl _ (lt_fresh hf)
  | some node =>
    rw [hnode] at hspot
    exact ht (.inr (.inr ⟨number, ⟨spot, hl, hnode.trans hspot⟩, hf⟩))

/-- A path that names a file reads its bytes. -/
theorem read_of_names {path : String} {location : Location} {number : Nat} (h : disk.node?.Names path location)
    (hn : disk.node? location = some (.file number)) : disk.read path = .ok (disk.contents number) := by
  have hleads := h.leadsTo (fun other he => by rw [hn] at he; cases he)
  obtain ⟨directory, name, -, hs, rfl⟩ := h
  obtain ⟨directory', name', hr, he⟩ := hleads
  obtain ⟨rfl, hname⟩ := List.append_inj' he rfl
  cases hname
  unfold read
  rw [hr]
  simp only [bind, Except.bind, Nodes.child_eq_ok_iff.2 ⟨hs, hn⟩]
  rfl

end Disk

namespace Store

variable {s : Store} {bytes : ByteArray} {disk made written after : Disk} {spot draft : Location}

/-! ## Steps of a save -/

/-- The disk after the directory of the document was made, or could not be. -/
def prepared (s : Store) (disk : Disk) : Disk := (s.makeParent disk).2

theorem addsDirectories_prepared (s : Store) (disk : Disk) : disk.AddsDirectories (s.prepared disk) := by
  have hmade (parent : String) : disk.AddsDirectories
      (FileSystem.makeDirectories (parent.length + 1) parent disk).2 :=
    (Disk.AddsDirectories.refl disk).makeDirectories _ _
  unfold prepared makeParent
  split
  · exact Disk.AddsDirectories.refl disk
  · rename_i parent _
    specialize hmade parent
    split
    · rename_i he
      rw [he] at hmade
      exact hmade
    · rename_i he
      rw [he] at hmade
      exact hmade

/-- The draft was opened where its path leads. What the path names is that place, or a link. -/
structure Drafted (s : Store) (made : Disk) (spot draft : Location) (bytes : ByteArray) (written : Disk) :
    Prop where
  names : made.node?.Names s.draft draft
  leads : made.node?.LeadsTo s.draft spot
  linked : spot = draft ∨ ∃ path, made.node? draft = some (.link path)
  noDirectory : made.node? spot ≠ some .directory
  noLink : ∀ path, made.node? spot ≠ some (.link path)
  wrote : made.Wrote spot bytes written

theorem Drafted.next (h : s.Drafted made spot draft bytes written) :
    s.Drafted made spot draft bytes written.next.2 :=
  ⟨h.names, h.leads, h.linked, h.noDirectory, h.noLink, h.wrote.next⟩

/-- No directory and nothing at all is what the draft's path names once the draft is written. -/
theorem Drafted.node (h : s.Drafted made spot draft bytes written) :
    ∃ node, written.node? draft = some node ∧ node ≠ .directory := by
  rcases h.linked with rfl | ⟨path, hpath⟩
  · rw [h.wrote.here]
    cases hnode : made.node? spot with
    | none => exact ⟨_, rfl, nofun⟩
    | some node =>
      refine ⟨node, rfl, ?_⟩
      rintro rfl
      exact h.noDirectory hnode
  · exact ⟨.link path, (h.wrote.node?_iff (by simp) draft).2 hpath, nofun⟩

theorem Drafted.names_written (h : s.Drafted made spot draft bytes written) :
    written.node?.Names s.draft draft := h.names.mono h.wrote.keepsPassages

/-- The path of a draft ends in a name, so it names the place to which it leads, or a link. -/
theorem draft_of_leadsTo {nodes : Nodes} {directory : Location} {name : String} (hs : name.utf8ByteSize ≤ 255)
    (h : nodes.LeadsTo s.draft (directory ++ [name])) :
    ∃ draft, nodes.Names s.draft draft ∧
      (directory ++ [name] = draft ∨ ∃ path, nodes draft = some (.link path)) := by
  obtain ⟨_, _, hr, -⟩ := id h
  unfold Nodes.resolve at hr
  cases hl : nodes.locate [] s.draft with
  | error e =>
    rw [hl] at hr
    cases hr
  | ok target =>
    obtain ⟨above, last, rfl⟩ := Target.ofPath_besides (by decide) (by decide)
      ((nodes.locate_root s.draft).symm.trans hl)
    rcases h.place hl with he | ⟨hsize, hlink⟩
    · obtain ⟨rfl, hname⟩ := List.append_inj' he rfl
      cases hname
      exact ⟨_, ⟨directory, name, hl, hs, rfl⟩, .inl rfl⟩
    · exact ⟨_, ⟨above, last, hl, hsize, rfl⟩, .inr hlink⟩

/-- A draft that is written was opened, as its path ends in a name. -/
theorem drafted_of_writeDraft {text : String} {result : Except StoreError Unit}
    (h : s.writeDraft text made = (result, written)) :
    (written = made.next.2 ∧ ∃ e, result = .error e) ∨
      ∃ spot draft bytes, s.Drafted made spot draft bytes written ∧
        (result = .ok () → bytes = text.toUTF8) := by
  have hopened {outcome : Except FileError Unit}
      (hw : FileSystem.writeAndSync s.draft text.toUTF8 made = (outcome, written)) :
      (written = made.next.2 ∧ ∃ e, outcome = .error e) ∨
        ∃ spot draft bytes, s.Drafted made spot draft bytes written ∧
          (outcome = .ok () → bytes = text.toUTF8) := by
    rcases Disk.writeAndSync_drafts hw with hnone | ⟨directory, name, part, hleads, hs, hd, hlink, hwrote, hall⟩
    · exact .inl hnone
    · obtain ⟨draft, hnames, hlinked⟩ := draft_of_leadsTo hs hleads
      exact .inr ⟨_, draft, part, ⟨hnames, hleads, hlinked, hd, hlink, hwrote⟩, hall⟩
  unfold writeDraft at h
  split at h
  · rename_i hw
    cases h
    rcases hopened hw with ⟨-, e, he⟩ | ⟨spot, draft, part, hdrafted, hall⟩
    · cases he
    · exact .inr ⟨spot, draft, part, hdrafted, fun _ => hall rfl⟩
  · rename_i hw
    cases h
    rcases hopened hw with ⟨hnone, -⟩ | ⟨spot, draft, part, hdrafted, -⟩
    · exact .inl ⟨hnone, _, rfl⟩
    · exact .inr ⟨spot, draft, part, hdrafted, nofun⟩

/-- What a save comes to, and whether it succeeds. -/
inductive Outcome (s : Store) (bytes : ByteArray) (disk made : Disk) : Bool → Disk → Prop
  /-- The draft could not be opened. -/
  | unopened {after : Disk} : disk.AddsDirectories after → s.Outcome bytes disk made false after
  /-- The draft could not be written to the end, or neither be moved nor removed. -/
  | left {spot draft : Location} {part : ByteArray} {after : Disk} :
      s.Drafted made spot draft part after → s.Outcome bytes disk made false after
  /-- The draft could not be moved and was removed. -/
  | removed {spot draft : Location} {written : Disk} :
      s.Drafted made spot draft bytes written →
      s.Outcome bytes disk made false (written.setNode draft none nofun)
  /-- The draft was moved to the place of the document. -/
  | moved {spot draft : Location} {written after : Disk} :
      s.Drafted made spot draft bytes written → written.renamed s.draft s.path = .ok ((), after) →
      s.Outcome bytes disk made true after

/-- The draft that cannot be moved is removed, unless the system refuses that as well. -/
theorem remove_draft (h : s.Drafted made spot draft bytes written) :
    (FileSystem.remove s.draft written).2 = written.next.2.setNode draft none nofun ∨
      ((FileSystem.remove s.draft written).2 = written.next.2 ∧
        ∃ reason count, written.next.1 = .refused reason count) := by
  obtain ⟨node, hn, hd⟩ := h.next.node
  have hremoved := Disk.removed_of_names h.next.names_written hn hd
  have hremove : FileSystem.remove s.draft written = Disk.served (·.removed s.draft) written := rfl
  rw [hremove]
  unfold Disk.served
  generalize written.next = next at hremoved ⊢
  obtain ⟨_ | ⟨reason, count⟩, later⟩ := next
  · dsimp only at hremoved ⊢
    rw [hremoved]
    exact .inl rfl
  · exact .inr ⟨rfl, reason, count, rfl⟩

theorem save_outcome (s : Store) (d : Document) (disk : Disk) :
    s.Outcome d.toYaml.toUTF8 disk (s.prepared disk) (s.save d disk).1.isOk (s.save d disk).2 := by
  have hadds := s.addsDirectories_prepared disk
  unfold prepared at hadds ⊢
  unfold save
  generalize s.makeParent disk = parent at hadds ⊢
  obtain ⟨_ | _, made⟩ := parent
  · exact .unopened hadds
  · dsimp only at hadds ⊢
    split
    · rename_i e written hw
      rcases drafted_of_writeDraft hw with ⟨rfl, -⟩ | ⟨spot, draft, part, h, -⟩
      · exact .unopened hadds.next
      · exact .left h
    · rename_i written hw
      rcases drafted_of_writeDraft hw with ⟨-, e, he⟩ | ⟨spot, draft, bytes, h, hall⟩
      · cases he
      · obtain rfl := hall rfl
        have hrename : FileSystem.rename s.draft s.path written =
          Disk.served (·.renamed s.draft s.path) written := rfl
        unfold publish
        rw [hrename]
        rcases Disk.served_cases (·.renamed s.draft s.path) written with ⟨e, he⟩ | ⟨u, moved, hm, he⟩
        · rw [he]
          dsimp only
          rcases remove_draft h.next with hr | ⟨hr, -⟩
          · rw [hr]
            exact .removed h.next.next
          · rw [hr]
            exact .left h.next.next
        · rw [he]
          exact .moved h.next hm

/-! ## What a save leaves alone -/

namespace Outcome

variable {ok : Bool} {location : Location}

theorem spares_setNode (hd : draft ≠ []) (hl : location ≠ draft) (disk : Disk) :
    disk.Spares (disk.setNode draft none nofun) location := by
  refine Disk.spares_of_node ?_ fun _ _ => rfl
  rw [Disk.node?_setNode hd, if_neg hl]

/-- What no path names is not moved. -/
theorem spares_renamed {u : Unit} (h : written.renamed s.draft s.path = .ok (u, after))
    (hd : ¬written.node?.Names s.draft location) (hp : ¬written.node?.Names s.path location) :
    written.Spares after location := by
  obtain ⟨old, new, node, hold, -, hnew, -, ⟨rfl, -⟩ | rfl⟩ := Disk.renamed_eq_ok h
  · exact Disk.spares_of_node rfl fun _ _ => rfl
  · refine Disk.spares_of_node ?_ fun _ _ => rfl
    rw [Disk.node?_move hold.ne_nil hnew.ne_nil, if_neg, if_neg]
    · rintro rfl
      exact hp hnew
    · rintro rfl
      exact hd hold

/-- A save that fails leaves everything alone but what the draft's path touches. -/
theorem spares_of_error (h : s.Outcome bytes disk made false after) (ha : disk.AddsDirectories made)
    (ht : ¬made.Touches s.draft location) : disk.Spares after location := by
  cases h with
  | unopened h => exact h.spares location
  | left h => exact (ha.spares location).trans (h.wrote.spares h.leads ht)
  | @removed spot draft written h =>
    refine ((ha.spares location).trans (h.wrote.spares h.leads ht)).trans (spares_setNode h.names.ne_nil ?_ _)
    rintro rfl
    exact ht (.inl h.names)

/-- So does one that succeeds, but for the place of the document. -/
theorem spares_of_ok (h : s.Outcome bytes disk made true after) (ha : disk.AddsDirectories made)
    (ht : ¬made.Touches s.draft location) (hp : ¬made.node?.Names s.path location) :
    disk.Spares after location := by
  cases h with
  | moved h hm =>
    refine ((ha.spares location).trans (h.wrote.spares h.leads ht)).trans (spares_renamed hm ?_ ?_)
    · intro hn
      exact ht (.inl (hn.mono h.wrote.addsNoPassages))
    · intro hn
      exact hp (hn.mono h.wrote.addsNoPassages)

/-- No directory goes away. -/
theorem keeps_directory (h : s.Outcome bytes disk made ok after) (ha : disk.AddsDirectories made)
    (hl : disk.node? location = some .directory) : after.node? location = some .directory := by
  have hmade {after : Disk} (ha : disk.AddsDirectories after) : after.node? location = some .directory := by
    rcases ha.nodes location with hsame | ⟨-, hdirectory⟩
    · rw [hsame, hl]
    · exact hdirectory
  have hwritten {spot draft : Location} {bytes : ByteArray} {written : Disk}
      (h : s.Drafted made spot draft bytes written) : written.node? location = some .directory :=
    (h.wrote.node?_iff (by simp) location).2 (hmade ha)
  have hne {spot draft : Location} {bytes : ByteArray} {written : Disk}
      (h : s.Drafted made spot draft bytes written) : location ≠ draft := by
    rintro rfl
    obtain ⟨node, hn, hd⟩ := h.node
    exact hd (Option.some.inj (hn.symm.trans (hwritten h)))
  cases h with
  | unopened h => exact hmade h
  | left h => exact hwritten h
  | @removed spot draft written h =>
    rw [Disk.node?_setNode h.names.ne_nil, if_neg (hne h)]
    exact hwritten h
  | moved h hm =>
    obtain ⟨old, new, node, hold, -, hnew, hd, ⟨rfl, -⟩ | rfl⟩ := Disk.renamed_eq_ok hm
    · exact hwritten h
    · obtain rfl := hold.unique h.names_written
      rw [Disk.node?_move hold.ne_nil hnew.ne_nil, if_neg (hne h), if_neg]
      · exact hwritten h
      · rintro rfl
        exact hd (hwritten h)

end Outcome

/-! ## What a save that succeeds puts in place -/

/-- What is written at a place without a link or another name stands there alone. -/
theorem Drafted.file (h : s.Drafted made spot draft bytes written) (hu : made.Unshared draft) :
    spot = draft ∧ ∃ number, written.node? draft = some (.file number) ∧
      written.contents number = bytes ∧ ∀ other, written.node? other = some (.file number) → other = draft := by
  have hspot : spot = draft := by
    rcases h.linked with he | ⟨path, hpath⟩
    · exact he
    · rcases hu with hn | ⟨number, hn, -⟩
      · rw [hn] at hpath; cases hpath
      · rw [hn] at hpath; cases hpath
  subst hspot
  refine ⟨rfl, ?_⟩
  rcases hu with hn | ⟨number, hn, honly⟩
  · have hhere : written.node? spot = some (.file made.fresh) := by rw [h.wrote.here, hn]; rfl
    refine ⟨_, hhere, h.wrote.filled _ hhere, fun other ho => Classical.byContradiction fun hne => ?_⟩
    rw [h.wrote.elsewhere other hne] at ho
    exact Nat.lt_irrefl _ (Disk.lt_fresh ho)
  · have hhere : written.node? spot = some (.file number) := by rw [h.wrote.here, hn]; rfl
    refine ⟨_, hhere, h.wrote.filled _ hhere, fun other ho => Classical.byContradiction fun hne => ?_⟩
    rw [h.wrote.elsewhere other hne] at ho
    exact hne (honly other ho)

/-- The path of a draft that stands alone touches nothing else. -/
theorem eq_of_touches (hn : made.node?.Names s.draft draft) (hu : made.Unshared draft) {location : Location}
    (ht : made.Touches s.draft location) : location = draft := by
  have hleads : made.node?.LeadsTo s.draft draft := by
    refine hn.leadsTo fun path hpath => ?_
    rcases hu with hnone | ⟨number, hfile, -⟩
    · rw [hnone] at hpath; cases hpath
    · rw [hfile] at hpath; cases hpath
  rcases ht with hnames | hl | ⟨number, ⟨spot, hl, hspot⟩, hfile⟩
  · exact hnames.unique hn
  · exact hl.unique hleads
  · obtain rfl := hl.unique hleads
    rcases hu with hnone | ⟨number', hfile', honly⟩
    · rw [hnone] at hspot; cases hspot
    · rw [hfile'] at hspot
      cases hspot
      exact honly location hfile

/-- A draft that stands alone is moved as it was written. -/
theorem Outcome.place_of_ok (h : s.Outcome bytes disk made true after) (ha : disk.AddsDirectories made)
    (hu : ∀ draft, made.node?.Names s.draft draft → made.Unshared draft) :
    ∃ place draft, made.node?.Names s.path place ∧ made.node?.Names s.draft draft ∧
      after.Holds place bytes ∧ after.node? draft = none ∧
      (∀ location, location ≠ place → location ≠ draft → disk.Spares after location) ∧
      ((∀ path, made.node? place ≠ some (.link path)) → after.read s.path = .ok bytes) := by
  have hspares {location : Location} (ht : ¬made.Touches s.draft location)
      (hp : ¬made.node?.Names s.path location) : disk.Spares after location := h.spares_of_ok ha ht hp
  cases h with
  | @moved spot draft written after h hm =>
    have hstands := hu draft h.names
    obtain ⟨rfl, number, hfile, hbytes, honly⟩ := h.file hstands
    obtain ⟨old, place, node, hold, hnode, hplace, hd, hmove⟩ := Disk.renamed_eq_ok hm
    obtain rfl := hold.unique h.names_written
    have hne : place ≠ old := Nodes.names_besides_ne (by decide) (by decide) hplace hold
    -- the place does not hold the draft's file already
    have hafter : after = written.move old place := by
      rcases hmove with ⟨-, number', hnumber', hplace'⟩ | hmove
      · rw [hfile] at hnode
        cases hnode
        cases hnumber'
        exact absurd (honly place hplace') hne
      · exact hmove
    subst hafter
    have hnew : (written.move old place).node? place = some (.file number) := by
      rw [Disk.node?_move hold.ne_nil hplace.ne_nil, if_neg hne, if_pos rfl, hfile]
    have hplace' := hplace.mono h.wrote.addsNoPassages
    refine ⟨place, old, hplace', h.names, ⟨number, hnew, hbytes⟩, ?_, ?_, ?_⟩
    · rw [Disk.node?_move hold.ne_nil hplace.ne_nil, if_pos rfl]
    · intro location hp hdraft
      refine hspares ?_ ?_
      · intro ht
        exact hdraft (eq_of_touches h.names hstands ht)
      · intro hn
        exact hp (hn.unique hplace')
    · intro hlink
      have hkeeps := Disk.keepsPassages_move hold.ne_nil hplace.ne_nil hfile hd fun path hl =>
        hlink path ((h.wrote.node?_iff (by simp) place).1 hl)
      rw [Disk.read_of_names (hplace.mono hkeeps) hnew]
      exact congrArg _ hbytes

/-- A draft that was written and cannot be moved is gone afterwards, or its removal was refused. -/
theorem save_unmoved {d : Document} {failed : Disk} {e : FileError} (hm : s.makeParent disk = (.ok (), made))
    (hw : s.writeDraft d.toYaml made = (.ok (), written))
    (hr : FileSystem.rename s.draft s.path written = (.error e, failed)) :
    (s.save d disk).1 = .error (.io s.path e) ∧ ∃ draft, made.node?.Names s.draft draft ∧
      ((s.save d disk).2.node? draft = none ∨ ∃ reason count, failed.next.1 = .refused reason count) := by
  have hsave : s.save d disk = (.error (.io s.path e), (FileSystem.remove s.draft failed).2) := by
    unfold save publish
    rw [hm]
    dsimp only
    rw [hw]
    dsimp only
    rw [hr]
  rw [hsave]
  refine ⟨rfl, ?_⟩
  rcases drafted_of_writeDraft hw with ⟨-, reason, he⟩ | ⟨spot, draft, part, h, -⟩
  · cases he
  · obtain ⟨rfl, -⟩ := Disk.served_error hr
    refine ⟨draft, h.names, ?_⟩
    rcases remove_draft h.next with hremoved | ⟨-, hrefused⟩
    · left
      rw [hremoved, Disk.node?_setNode h.names.ne_nil, if_pos rfl]
    · exact .inr hrefused

/-! ## A save that nothing stands in the way of -/

/-- A draft is written where its path names a file, or nothing that stands there. -/
theorem writeDraft_of_names (text : String) (hf : made.fates = []) (h : made.node?.Names s.draft draft)
    (hn : made.node? draft = none ∨ ∃ number, made.node? draft = some (.file number)) :
    ∃ written, s.writeDraft text made = (.ok (), written) ∧ written.fates = [] := by
  obtain ⟨handle, opened, ho, hf'⟩ := Disk.opened_of_names h hn
  rw [hf] at hf'
  have hcreate : FileSystem.create s.draft made = (.ok handle, opened) := Disk.served_of_unrefused hf ho
  have hwrite : FileSystem.writeAll handle text.toUTF8 opened =
      (.ok (), opened.fillHandle text.toUTF8 handle) := Disk.writeAll_of_unrefused hf' ..
  have hf'' : (opened.fillHandle text.toUTF8 handle).fates = [] := (opened.fates_fillHandle ..).trans hf'
  have hsync : FileSystem.sync handle (opened.fillHandle text.toUTF8 handle) =
      (.ok (), opened.fillHandle text.toUTF8 handle) := Disk.served_of_unrefused hf'' rfl
  refine ⟨_, ?_, hf''⟩
  unfold writeDraft FileSystem.writeAndSync
  rw [hcreate]
  dsimp only
  rw [hwrite]
  dsimp only
  rw [hsync]

/-- A save succeeds where the draft can be written and no directory has the place of the document. -/
theorem save_of_names {d : Document} {place : Location} (hm : s.makeParent disk = (.ok (), made))
    (hf : made.fates = []) (h : made.node?.Names s.draft draft)
    (hn : made.node? draft = none ∨ ∃ number, made.node? draft = some (.file number))
    (hplace : made.node?.Names s.path place) (hd : made.node? place ≠ some .directory) :
    (s.save d disk).1 = .ok [.documentSaved s.path d.restaurants.length] := by
  obtain ⟨written, hw, hf'⟩ := writeDraft_of_names d.toYaml hf h hn
  rcases drafted_of_writeDraft hw with ⟨-, e, he⟩ | ⟨spot, draft', part, hdrafted, -⟩
  · cases he
  · obtain rfl := hdrafted.names.unique h
    obtain ⟨node, hnode, hnd⟩ := hdrafted.node
    have hplace' := hplace.mono hdrafted.wrote.keepsPassages
    have hd' : written.node? place ≠ some .directory := by
      rwa [ne_eq, hdrafted.wrote.node?_iff (by simp)]
    obtain ⟨moved, hmoved⟩ :=
      Disk.renamed_of_names hdrafted.names_written hnode hnd hplace' hd'
    have hrename : FileSystem.rename s.draft s.path written = (.ok (), moved) :=
      Disk.served_of_unrefused hf' hmoved
    unfold save publish
    rw [hm]
    dsimp only
    rw [hw]
    dsimp only
    rw [hrename]

/-- What a save does to a disk, whether it succeeds or fails. -/
structure ReplacesOrKeeps (s : Store) (d : Document) (disk : Disk) : Prop where
  /-- The draft stands beside the document, under its name with `.tmp` after it. -/
  sibling : ∀ (nodes : Nodes) (place draft : Location), nodes.Names s.path place → nodes.Names s.draft draft →
    ∃ directory name, place = directory ++ [name] ∧ draft = directory ++ [name ++ ".tmp"]
  /-- A save that fails leaves everything alone but the draft and the file to which the draft leads. -/
  kept : ∀ e, (s.save d disk).1 = .error e → ∀ location, ¬(s.prepared disk).Touches s.draft location →
    disk.Spares (s.save d disk).2 location
  /-- A draft that cannot be moved is removed, unless the system refuses that as well. -/
  unmoved : ∀ made written failed e, s.makeParent disk = (.ok (), made) →
    s.writeDraft d.toYaml made = (.ok (), written) →
    FileSystem.rename s.draft s.path written = (.error e, failed) →
    (s.save d disk).1 = .error (.io s.path e) ∧ ∃ draft, made.node?.Names s.draft draft ∧
      ((s.save d disk).2.node? draft = none ∨ ∃ reason count, failed.next.1 = .refused reason count)
  /-- A save that succeeds leaves everything else alone but the place of the document. -/
  others : ∀ events, (s.save d disk).1 = .ok events → ∀ location,
    ¬(s.prepared disk).Touches s.draft location → ¬(s.prepared disk).node?.Names s.path location →
    disk.Spares (s.save d disk).2 location
  /-- A save that succeeds puts the whole text in the place of the document, leaves no draft and leaves everything
  else alone, if the draft was not there or was a file of no other name. The path reads the text, unless it led
  through a link at that place. -/
  text : ∀ events, (s.save d disk).1 = .ok events →
    (∀ draft, (s.prepared disk).node?.Names s.draft draft → (s.prepared disk).Unshared draft) →
    ∃ place draft, (s.prepared disk).node?.Names s.path place ∧ (s.prepared disk).node?.Names s.draft draft ∧
      (s.save d disk).2.Holds place d.toYaml.toUTF8 ∧ (s.save d disk).2.node? draft = none ∧
      (∀ location, location ≠ place → location ≠ draft → disk.Spares (s.save d disk).2 location) ∧
      ((∀ path, (s.prepared disk).node? place ≠ some (.link path)) →
        (s.save d disk).2.read s.path = .ok d.toYaml.toUTF8)
  /-- A save succeeds if the directory of the document is there or can be made, the draft is a file or not there,
  no directory has the place of the document, and the system refuses nothing after that. -/
  succeeds : ∀ made place draft, s.makeParent disk = (.ok (), made) → made.fates = [] →
    made.node?.Names s.draft draft →
    (made.node? draft = none ∨ ∃ number, made.node? draft = some (.file number)) →
    made.node?.Names s.path place → made.node? place ≠ some .directory →
    (s.save d disk).1 = .ok [.documentSaved s.path d.restaurants.length]
  /-- No directory goes away. -/
  directories : ∀ location, disk.node? location = some .directory →
    (s.save d disk).2.node? location = some .directory

/-- A save replaces the document or keeps it, for every store, document and disk. -/
theorem save_replaces_or_keeps (s : Store) (d : Document) (disk : Disk) : s.ReplacesOrKeeps d disk := by
  have hadds := s.addsDirectories_prepared disk
  have houtcome := s.save_outcome d disk
  constructor
  case sibling =>
    intro nodes place draft hplace hdraft
    exact hplace.besides (by decide) hdraft
  case kept =>
    intro e he location ht
    rw [he] at houtcome
    exact Outcome.spares_of_error houtcome hadds ht
  case unmoved =>
    intro made written failed e
    exact save_unmoved
  case others =>
    intro events he location ht hp
    rw [he] at houtcome
    exact Outcome.spares_of_ok houtcome hadds ht hp
  case text =>
    intro events he hu
    rw [he] at houtcome
    exact Outcome.place_of_ok houtcome hadds hu
  case succeeds =>
    intro made place draft hm hf h hn hplace hd
    exact save_of_names hm hf h hn hplace hd
  case directories =>
    intro location hl
    exact Outcome.keeps_directory houtcome hadds hl

/-- The name of the draft may be another file's, or that of a file with other names, or a link, and the system may
refuse to remove it. Then a save is not all or nothing. -/
theorem save_strays :
    -- the draft of a directory is named `.tmp`, and goes away though the save fails
    (let disk : Disk := .ofNames [([".tmp"], .file 0)] ["kept".toUTF8] []
     disk.read ".tmp" = .ok "kept".toUTF8 ∧ (save ⟨"."⟩ .empty disk).1 = .error (.io "." .busy) ∧
        (save ⟨"."⟩ .empty disk).2.read ".tmp" = .error .notFound) ∧
    -- the draft is a second name of another file, which is overwritten
    (let disk : Disk := .ofNames [(["doc.tmp"], .file 0), (["other"], .file 0)] ["kept".toUTF8] []
     disk.read "other" = .ok "kept".toUTF8 ∧ (save ⟨"doc"⟩ .empty disk).1 = .ok [.documentSaved "doc" 0] ∧
        (save ⟨"doc"⟩ .empty disk).2.read "other" = .ok Document.empty.toYaml.toUTF8) ∧
    -- the draft is a second name of the document, and stays
    (let disk : Disk := .ofNames [(["doc"], .file 0), (["doc.tmp"], .file 0)] ["old".toUTF8] []
     (save ⟨"doc"⟩ .empty disk).1 = .ok [.documentSaved "doc" 0] ∧
        (save ⟨"doc"⟩ .empty disk).2.read "doc.tmp" = .ok Document.empty.toYaml.toUTF8) ∧
    -- the draft is a link to the document, which becomes a link to itself
    (let disk : Disk := .ofNames [(["doc"], .file 0), (["doc.tmp"], .link "doc")] ["old".toUTF8] []
     (save ⟨"doc"⟩ .empty disk).1 = .ok [.documentSaved "doc" 0] ∧
        (save ⟨"doc"⟩ .empty disk).2.read "doc" = .error .tooManyLinks) ∧
    -- neither the move nor the removal is permitted, and the draft stays
    (let denied : FileError := .other "Permission denied (os error 13)"
     let disk : Disk := .ofNames [(["doc.tmp"], .file 0)] ["stale".toUTF8]
        [.served, .served, .served, .refused denied 0, .refused denied 0]
     (save ⟨"doc"⟩ .empty disk).1 = .error (.io "doc" denied) ∧
        (save ⟨"doc"⟩ .empty disk).2.read "doc.tmp" = .ok Document.empty.toYaml.toUTF8) :=
  ⟨⟨rfl, rfl, rfl⟩, ⟨rfl, rfl, rfl⟩, ⟨rfl, rfl⟩, ⟨rfl, rfl⟩, rfl, rfl⟩

end Store

end LunchRush
