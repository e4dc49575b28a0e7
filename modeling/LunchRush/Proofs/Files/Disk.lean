import LunchRush.Files.Disk
import LunchRush.Proofs.Files.Directories
/-!
# What calls do to a disk

Where a path leads depends on the directories and links alone (`Names.mono`). Each operation that succeeds
changes the nodes at the places that its paths name or lead to, and no other (`opened_eq_ok`,
`renamed_eq_ok`, `removed_of_names`); a call that is refused changes nothing at all, except that a write may
have written some bytes (`writeAndSync_drafts`).
-/

namespace LunchRush

namespace Disk

/-! ## Lookups -/

theorem node?_setNode {location : Location} (hl : location ≠ []) (disk : Disk) (node : Option Inode)
    (h : ∀ number, node = some (.file number) → number < disk.fresh) (other : Location) :
    (disk.setNode location node h).node? other = if other = location then node else disk.node? other := by
  cases other with
  | nil => rw [if_neg (Ne.symm hl)]; rfl
  | cons name below => rfl

theorem node?_addFile {location : Location} (hl : location ≠ []) (disk : Disk) (other : Location) :
    (disk.addFile location).node? other =
      if other = location then some (.file disk.fresh) else disk.node? other := by
  cases other with
  | nil => rw [if_neg (Ne.symm hl)]; rfl
  | cons name below => rfl

theorem node?_move {source destination : Location} (hs : source ≠ []) (hd : destination ≠ [])
    (disk : Disk) (other : Location) :
    (disk.move source destination).node? other =
      if other = source then none else if other = destination then disk.node? source else disk.node? other := by
  unfold move
  have hsource : disk.node? source = disk.nodes source := by
    cases source with
    | nil => exact absurd rfl hs
    | cons name below => rfl
  rw [node?_setNode hs, node?_setNode hd, hsource]

theorem node?_fill (disk : Disk) (number : Nat) (bytes : ByteArray) (location : Location) :
    (disk.fill number bytes).node? location = disk.node? location := by
  cases location <;> rfl

/-- A file that stands somewhere has a number below the next one. -/
theorem lt_fresh {disk : Disk} {location : Location} {number : Nat}
    (h : disk.node? location = some (.file number)) : number < disk.fresh := by
  cases location with
  | nil => cases h
  | cons name below => exact disk.numbered _ _ h

end Disk

namespace Nodes

theorem child_eq_ok_iff {nodes : Nodes} {directory : Location} {name : String} {node : Option Inode} :
    nodes.child directory name = .ok node ↔
      name.utf8ByteSize ≤ 255 ∧ nodes (directory ++ [name]) = node := by
  unfold child
  split
  · simp; omega
  · simp; omega

/-! ## Walks -/

/-- The directories and links of the first nodes are among the second as well. -/
structure KeepsPassages (nodes nodes' : Nodes) : Prop where
  directory : ∀ location, nodes location = some .directory → nodes' location = some .directory
  link : ∀ location path, nodes location = some (.link path) → nodes' location = some (.link path)

theorem walkWith_mono {nodes nodes' : Nodes} (hk : KeepsPassages nodes nodes')
    {follow follow' : Location → List String → Except FileError Location}
    (hf : ∀ directory segments reached, follow directory segments = .ok reached →
      follow' directory segments = .ok reached) (segments : List String) :
    ∀ directory reached, nodes.walkWith follow directory segments = .ok reached →
      nodes'.walkWith follow' directory segments = .ok reached := by
  induction segments with
  | nil => intro _ _ h; exact h
  | cons segment rest ih =>
    intro directory reached h
    unfold walkWith at h ⊢
    split at h
    · rename_i hdot
      rw [if_pos hdot]
      exact ih _ _ h
    · rename_i hdot
      rw [if_neg hdot]
      split at h
      · rename_i hup
        rw [if_pos hup]
        exact ih _ _ h
      · rename_i hup
        rw [if_neg hup]
        split at h
        · cases h
        · cases h
        · rename_i hc
          obtain ⟨hs, hn⟩ := child_eq_ok_iff.1 hc
          rw [child_eq_ok_iff.2 ⟨hs, hk.directory _ hn⟩]
          exact ih _ _ h
        · rename_i path hc
          obtain ⟨hs, hn⟩ := child_eq_ok_iff.1 hc
          rw [child_eq_ok_iff.2 ⟨hs, hk.link _ _ hn⟩]
          exact hf _ _ _ h
        · cases h

theorem walk_mono {nodes nodes' : Nodes} (hk : KeepsPassages nodes nodes') (links : Nat) :
    ∀ directory segments reached, nodes.walk links directory segments = .ok reached →
      nodes'.walk links directory segments = .ok reached := by
  induction links with
  | zero =>
    intro directory segments reached h
    exact walkWith_mono hk (fun _ _ _ h => h) segments directory reached h
  | succ links ih =>
    intro directory segments reached h
    exact walkWith_mono hk (fun d s r h => ih d s r h) segments directory reached h

/-- Segments that name nothing lead nowhere else. -/
theorem walkWith_steady {nodes : Nodes} {follow : Location → List String → Except FileError Location}
    (hf : ∀ directory, Target.Steady (follow directory)) (segments : List String) :
    ∀ directory segment, segment = "" ∨ segment = "." →
      nodes.walkWith follow directory (segments ++ [segment]) = nodes.walkWith follow directory segments := by
  induction segments with
  | nil => rintro directory segment (rfl | rfl) <;> rfl
  | cons first rest ih =>
    intro directory segment h
    have hrest : ∀ directory, nodes.walkWith follow directory (rest ++ [segment]) =
        nodes.walkWith follow directory rest := fun directory => ih directory segment h
    have hlink : ∀ directory path, follow directory (Path.segments path ++ (rest ++ [segment])) =
        follow directory (Path.segments path ++ rest) := by
      intro directory path
      rw [← List.append_assoc]
      exact hf directory _ segment h
    simp only [List.cons_append, walkWith, hrest, hlink]

theorem walk_steady (nodes : Nodes) (links : Nat) :
    ∀ directory, Target.Steady (nodes.walk links directory) := by
  induction links with
  | zero =>
    intro directory segments
    exact walkWith_steady (fun _ _ _ _ => rfl) segments directory
  | succ links ih =>
    intro directory segments
    exact walkWith_steady ih segments directory

theorem locate_root (nodes : Nodes) (path : String) :
    nodes.locate [] path = Target.ofPath (nodes.walk linksMax []) path := by
  have hstart : start [] path = [] := by
    unfold start
    split <;> rfl
  rw [locate, hstart]

/-! ## What a path names -/

/-- The path ends in a name of an existing directory. What stands there is not looked at, and links under
that name are not followed. -/
def Names (nodes : Nodes) (path : String) (location : Location) : Prop :=
  ∃ directory name, nodes.locate [] path = .ok ⟨directory, .name name, false⟩ ∧
    name.utf8ByteSize ≤ 255 ∧ location = directory ++ [name]

variable {nodes nodes' : Nodes}

theorem names_of_locate {path name : String} {target : Target} (hl : nodes.locate [] path = .ok target)
    (hn : target.last = .name name) (hsl : target.slashed = false) (hs : name.utf8ByteSize ≤ 255) :
    nodes.Names path (target.directory ++ [name]) := by
  obtain ⟨directory, last, slashed⟩ := target
  obtain rfl : last = .name name := hn
  obtain rfl : slashed = false := hsl
  exact ⟨directory, name, hl, hs, rfl⟩

theorem Names.ne_nil {path : String} {location : Location} (h : nodes.Names path location) :
    location ≠ [] := by
  obtain ⟨directory, name, -, -, rfl⟩ := h
  simp

theorem Names.unique {path : String} {a b : Location} (ha : nodes.Names path a) (hb : nodes.Names path b) :
    a = b := by
  obtain ⟨directory, name, he, -, rfl⟩ := ha
  obtain ⟨directory', name', he', -, rfl⟩ := hb
  cases he.symm.trans he'
  rfl

theorem Names.mono (hk : KeepsPassages nodes nodes') {path : String} {location : Location}
    (h : nodes.Names path location) : nodes'.Names path location := by
  obtain ⟨directory, name, he, hs, rfl⟩ := h
  rw [locate_root] at he
  exact ⟨directory, name, (locate_root ..).trans (Target.ofPath_mono (walk_mono hk linksMax []) he), hs, rfl⟩

/-- The path beside a path names an entry of the same directory, with the ending after the name. -/
theorem Names.besides {path ending : String} {a b : Location} (he : '/' ∉ ending.toList)
    (ha : nodes.Names path a) (hb : nodes.Names (Path.besides path ending) b) :
    ∃ directory name, a = directory ++ [name] ∧ b = directory ++ [name ++ ending] := by
  obtain ⟨directory, name, hends, -, rfl⟩ := ha
  obtain ⟨directory', name', hends', -, rfl⟩ := hb
  rw [locate_root] at hends hends'
  obtain ⟨rfl, rfl⟩ := Target.Ends.besides (nodes.walk_steady linksMax []) he hends hends'
  exact ⟨_, _, rfl, rfl⟩

theorem names_besides_ne {path ending : String} {a b : Location} (he : '/' ∉ ending.toList)
    (hne : ending ≠ "") (ha : nodes.Names path a) (hb : nodes.Names (Path.besides path ending) b) : a ≠ b := by
  obtain ⟨directory, name, rfl, rfl⟩ := ha.besides he hb
  exact fun heq => Target.ne_append hne (List.singleton_inj.1 (List.append_cancel_left heq))

/-- The path leads to a place, links followed. -/
def LeadsTo (nodes : Nodes) (path : String) (location : Location) : Prop :=
  ∃ directory name, nodes.resolve path = .ok ⟨directory, .name name, false⟩ ∧ location = directory ++ [name]

theorem LeadsTo.unique {path : String} {a b : Location} (ha : nodes.LeadsTo path a)
    (hb : nodes.LeadsTo path b) : a = b := by
  obtain ⟨directory, name, he, rfl⟩ := ha
  obtain ⟨directory', name', he', rfl⟩ := hb
  cases he.symm.trans he'
  rfl

/-- The path leads to a file. -/
def LeadsToFile (nodes : Nodes) (path : String) (number : Nat) : Prop :=
  ∃ location, nodes.LeadsTo path location ∧ nodes location = some (.file number)

theorem settle_of_no_link {target : Target} (h : nodes.link? target = none) (links : Nat) :
    nodes.settle links target = .ok target := by
  cases links with
  | zero => simp [settle, h]
  | succ links => simp [settle, h]

/-- A path leads to what it names, if that is no link. -/
theorem Names.leadsTo {path : String} {location : Location} (h : nodes.Names path location)
    (hn : ∀ other, nodes location ≠ some (.link other)) : nodes.LeadsTo path location := by
  obtain ⟨directory, name, he, hs, rfl⟩ := h
  have hnone : nodes.link? ⟨directory, .name name, false⟩ = none := by
    simp only [link?]
    rw [child_eq_ok_iff.2 ⟨hs, rfl⟩]
    split
    · rename_i other hother
      exact absurd (Except.ok.inj hother) (hn other)
    · rfl
  refine ⟨directory, name, ?_, rfl⟩
  unfold resolve
  rw [he]
  exact settle_of_no_link hnone linksMax

/-- A path leads to the place that it names, or there is a link at that place. -/
theorem LeadsTo.place {path name : String} {directory location : Location}
    (hl : nodes.locate [] path = .ok ⟨directory, .name name, false⟩) (h : nodes.LeadsTo path location) :
    location = directory ++ [name] ∨
      name.utf8ByteSize ≤ 255 ∧ ∃ other, nodes (directory ++ [name]) = some (.link other) := by
  obtain ⟨directory', name', hr, rfl⟩ := h
  unfold resolve at hr
  rw [hl] at hr
  replace hr : nodes.settle linksMax ⟨directory, .name name, false⟩ = _ := hr
  cases hlink : nodes.link? ⟨directory, .name name, false⟩ with
  | none =>
    rw [settle_of_no_link hlink] at hr
    cases hr
    exact .inl rfl
  | some other =>
    simp only [link?] at hlink
    split at hlink
    · rename_i found hc
      obtain ⟨hsize, hnode⟩ := child_eq_ok_iff.1 hc
      exact .inr ⟨hsize, found, hnode⟩
    · cases hlink

end Nodes

namespace Disk

open Nodes (child_eq_ok_iff names_of_locate)

variable {disk disk' : Disk}

/-! ## Operations -/

theorem madeDirectory_eq_ok {path : String} {u : Unit} (h : disk.madeDirectory path = .ok (u, disk')) :
    ∃ location, location ≠ [] ∧ disk.node? location = none ∧ disk' = disk.addDirectory location := by
  unfold madeDirectory at h
  obtain ⟨target, -, h⟩ := ok_of_bind h
  split at h
  · cases h
  · rename_i name _
    obtain ⟨node, hc, h⟩ := ok_of_bind h
    obtain ⟨-, hn⟩ := child_eq_ok_iff.1 hc
    split at h
    · cases h
    · cases h
      exact ⟨target.directory ++ [name], by simp, hn, rfl⟩

/-- A file that is opened stands at the place that the path leads to: a new one, or one that was there. -/
theorem opened_eq_ok {path : String} {handle : Option Nat} (h : disk.opened path = .ok (handle, disk')) :
    ∃ directory name, disk.node?.LeadsTo path (directory ++ [name]) ∧ name.utf8ByteSize ≤ 255 ∧
      ((disk.node? (directory ++ [name]) = none ∧ handle = some disk.fresh ∧
          disk' = disk.addFile (directory ++ [name])) ∨
        (∃ number, disk.node? (directory ++ [name]) = some (.file number) ∧ handle = some number ∧
          disk' = disk.fill number .empty) ∨
        (disk.node? (directory ++ [name]) = some .special ∧ handle = none ∧ disk' = disk)) := by
  unfold opened at h
  obtain ⟨⟨directory, last, slashed⟩, hr, h⟩ := ok_of_bind h
  split at h
  · cases h
  · rename_i name hlast
    obtain rfl : last = .name name := hlast
    split at h
    · cases h
    · rename_i hsl
      obtain rfl : slashed = false := by simpa using hsl
      obtain ⟨node, hc, h⟩ := ok_of_bind h
      obtain ⟨hs, hn⟩ := child_eq_ok_iff.1 hc
      refine ⟨directory, name, ⟨directory, name, hr, rfl⟩, hs, ?_⟩
      split at h
      · cases h
        exact .inl ⟨hn, rfl, rfl⟩
      · rename_i number
        cases h
        exact .inr (.inl ⟨number, hn, rfl, rfl⟩)
      · cases h
        exact .inr (.inr ⟨hn, rfl, rfl⟩)
      · cases h

/-- What is moved had the one name, and has the other one afterwards; two names of one file stay. -/
theorem renamed_eq_ok {source destination : String} {u : Unit}
    (h : disk.renamed source destination = .ok (u, disk')) :
    ∃ old new node, disk.node?.Names source old ∧ disk.node? old = some node ∧
      disk.node?.Names destination new ∧
      disk.node? new ≠ some .directory ∧
      ((disk' = disk ∧ ∃ number, node = .file number ∧ disk.node? new = some (.file number)) ∨
        disk' = disk.move old new) := by
  unfold renamed at h
  obtain ⟨start, hl, h⟩ := ok_of_bind h
  obtain ⟨finish, hl', h⟩ := ok_of_bind h
  split at h
  · rename_i old new hold hnew
    obtain ⟨node, hc, h⟩ := ok_of_bind h
    obtain ⟨hs, hn⟩ := child_eq_ok_iff.1 hc
    split at h
    · cases h
    · cases h
    · rename_i node _
      obtain ⟨place, hc', h⟩ := ok_of_bind h
      obtain ⟨hs', hn'⟩ := child_eq_ok_iff.1 hc'
      split at h
      · cases h
      · rename_i hsl
        simp only [Bool.or_eq_true, not_or, Bool.not_eq_true] at hsl
        split at h
        · cases h
        · rename_i hd
          refine ⟨_, _, node, names_of_locate hl hold hsl.1 hs, hn, names_of_locate hl' hnew hsl.2 hs', ?_, ?_⟩
          · rw [hn']
            simpa using hd
          · split at h
            · rename_i hsame
              cases h
              left
              refine ⟨rfl, ?_⟩
              unfold isSameFile at hsame
              split at hsame
              · rename_i number other _
                obtain rfl : number = other := by simpa using hsame
                exact ⟨number, rfl, hn'⟩
              · cases hsame
            · cases h
              exact .inr rfl
  · cases h

/-- What a path names and is no directory can be removed. -/
theorem removed_of_names {path : String} {location : Location} {node : Inode}
    (h : disk.node?.Names path location) (hn : disk.node? location = some node) (hd : node ≠ .directory) :
    disk.removed path = .ok ((), disk.setNode location none nofun) := by
  obtain ⟨directory, name, he, hs, rfl⟩ := h
  unfold removed
  rw [he]
  simp only [bind, Except.bind, child_eq_ok_iff.2 ⟨hs, hn⟩]
  cases node with
  | directory => exact absurd rfl hd
  | file number => rfl
  | link path => rfl
  | special => rfl

/-- A path that names a file, or a place where one can be made, is opened. -/
theorem opened_of_names {path : String} {location : Location} (h : disk.node?.Names path location)
    (hn : disk.node? location = none ∨ ∃ number, disk.node? location = some (.file number)) :
    ∃ handle disk', disk.opened path = .ok (handle, disk') ∧ disk'.fates = disk.fates := by
  have hleads := h.leadsTo (fun other he => by rcases hn with hn | ⟨number, hn⟩ <;> rw [hn] at he <;> cases he)
  obtain ⟨directory, name, -, hs, rfl⟩ := h
  obtain ⟨directory', name', hr, he⟩ := hleads
  obtain ⟨rfl, hname⟩ := List.append_inj' he rfl
  cases hname
  unfold opened
  rw [hr]
  rcases hn with hn | ⟨number, hn⟩
  · simp only [bind, Except.bind, child_eq_ok_iff.2 ⟨hs, hn⟩]
    exact ⟨_, _, rfl, rfl⟩
  · simp only [bind, Except.bind, child_eq_ok_iff.2 ⟨hs, hn⟩]
    exact ⟨_, _, rfl, rfl⟩

/-- What is no directory can be moved to where none is. -/
theorem renamed_of_names {source destination : String} {old new : Location} {node : Inode}
    (h : disk.node?.Names source old) (hn : disk.node? old = some node) (hd : node ≠ .directory)
    (h' : disk.node?.Names destination new) (hd' : disk.node? new ≠ some .directory) :
    ∃ disk', disk.renamed source destination = .ok ((), disk') := by
  obtain ⟨directory, name, he, hs, rfl⟩ := h
  obtain ⟨directory', name', he', hs', rfl⟩ := h'
  unfold renamed
  rw [he, he']
  simp only [bind, Except.bind, child_eq_ok_iff.2 ⟨hs, hn⟩, child_eq_ok_iff.2 ⟨hs', rfl⟩]
  cases node with
  | directory => exact absurd rfl hd
  | _ =>
    rw [if_neg (by simp), if_neg (by simpa using hd')]
    split
    · exact ⟨_, rfl⟩
    · exact ⟨_, rfl⟩

end Disk

end LunchRush
