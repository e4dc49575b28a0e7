import LunchRush.Files.System
/-!
# Disks

A system of files as a program finds it: a file may stand under several names, a name may be a link to another
path, and the system may refuse any call, for lack of permission or space or because the hardware fails. A
tree of files is what a disk is without links and refusals.
-/

namespace LunchRush

/-- What stands under a name. -/
inductive Inode where
  /-- A file, by its number. -/
  | file (number : Nat)
  | directory
  /-- A symbolic link. -/
  | link (path : String)
  /-- A device, a pipe or a socket; it keeps nothing that is written to it. -/
  | special
deriving DecidableEq, Repr

/-- What becomes of a call. -/
inductive Fate where
  | served
  /-- The call is refused. Nothing happens, but that a write has written some bytes before. -/
  | refused (error : FileError) (written : Nat)
deriving DecidableEq, Repr

/-! ## Names -/

/-- What stands at each location. -/
abbrev Nodes := Location → Option Inode

namespace Nodes

/-- What a directory holds under a name. -/
def child (nodes : Nodes) (directory : Location) (name : String) : Except FileError (Option Inode) :=
  if 255 < name.utf8ByteSize then .error .nameTooLong else .ok (nodes (directory ++ [name]))

/-- The directory at which a path starts. -/
def start (directory : Location) (path : String) : Location :=
  if path.toList.head? == some '/' then [] else directory

/-- A walk along segments. What is behind a link is walked by `follow`. -/
def walkWith (nodes : Nodes) (follow : Location → List String → Except FileError Location)
    (directory : Location) : List String → Except FileError Location
  | [] => .ok directory
  | segment :: rest =>
    if segment = "" || segment = "." then walkWith nodes follow directory rest
    else if segment = ".." then walkWith nodes follow directory.dropLast rest
    else
      match nodes.child directory segment with
      | .error e => .error e
      | .ok none => .error .notFound
      | .ok (some .directory) => walkWith nodes follow (directory ++ [segment]) rest
      | .ok (some (.link path)) => follow (start directory path) (Path.segments path ++ rest)
      | .ok (some _) => .error .notDirectory

/-- A walk that follows so many links. -/
def walk (nodes : Nodes) : (links : Nat) → Location → List String → Except FileError Location
  | 0 => nodes.walkWith fun _ _ => .error .tooManyLinks
  | links + 1 => nodes.walkWith (walk nodes links)

/-- How many links are followed. -/
def linksMax : Nat := 40

/-- Where a path ends that starts in a directory. A link under its last name is not followed. -/
def locate (nodes : Nodes) (directory : Location) (path : String) : Except FileError Target :=
  Target.ofPath (nodes.walk linksMax (start directory path)) path

/-- The path of a link at the end of a path. -/
def link? (nodes : Nodes) (target : Target) : Option String :=
  match target.last with
  | .reached => none
  | .name s =>
    match nodes.child target.directory s with
    | .ok (some (.link path)) => some path
    | _ => none

/-- The end of a path behind the links that stand there. -/
def settle (nodes : Nodes) : (links : Nat) → Target → Except FileError Target
  | 0, target => if (nodes.link? target).isSome then .error .tooManyLinks else .ok target
  | links + 1, target =>
    match nodes.link? target with
    | none => .ok target
    | some path => (nodes.locate target.directory path).bind (settle nodes links)

/-- Where a path leads, links followed. -/
def resolve (nodes : Nodes) (path : String) : Except FileError Target :=
  (nodes.locate [] path).bind (nodes.settle linksMax)

end Nodes

/-! ## Disks -/

/-- Names, the files under them, and what becomes of the next calls; later ones are served. -/
structure Disk where
  nodes : Nodes
  contents : Nat → ByteArray
  /-- The number of the next new file. -/
  fresh : Nat
  numbered : ∀ location number, nodes location = some (.file number) → number < fresh
  fates : List Fate

namespace Disk

/-- What stands at a location. The root is always there. -/
def node? (disk : Disk) : Nodes
  | [] => some .directory
  | location => disk.nodes location

/-! ## Changes -/

/-- The bytes of a file replaced. -/
def fill (disk : Disk) (number : Nat) (bytes : ByteArray) : Disk :=
  { disk with contents := fun n => if n = number then bytes else disk.contents n }

/-- A name that is given to a node, or taken away. Of the files only those that are there get names. -/
def setNode (disk : Disk) (location : Location) (node : Option Inode)
    (h : ∀ number, node = some (.file number) → number < disk.fresh) : Disk :=
  { disk with
    nodes := fun l => if l = location then node else disk.nodes l
    numbered := by
      intro l number hl
      split at hl
      · exact h number hl
      · exact disk.numbered l number hl }

/-- A new file without bytes. -/
def addFile (disk : Disk) (location : Location) : Disk :=
  { disk with
    nodes := fun l => if l = location then some (.file disk.fresh) else disk.nodes l
    contents := fun n => if n = disk.fresh then .empty else disk.contents n
    fresh := disk.fresh + 1
    numbered := by
      intro l number hl
      split at hl
      · cases hl
        exact Nat.lt_succ_self _
      · exact Nat.lt_succ_of_lt (disk.numbered l number hl) }

/-- A new directory. -/
def addDirectory (disk : Disk) (location : Location) : Disk := disk.setNode location (some .directory) nofun

/-- What has a name gets another one instead. -/
def move (disk : Disk) (source destination : Location) : Disk :=
  (disk.setNode destination (disk.nodes source) (disk.numbered source)).setNode source none nofun

/-! ## Operations -/

/-- Whether a path leads to a directory. -/
def leadsToDirectory (disk : Disk) (path : String) : Bool :=
  match disk.node?.resolve path with
  | .error _ => false
  | .ok target =>
    match target.last with
    | .reached => true
    | .name s => disk.node? (target.directory ++ [s]) == some .directory

/-- Makes a directory in one that exists. -/
def madeDirectory (disk : Disk) (path : String) : Except FileError (Unit × Disk) := do
  let target ← disk.node?.locate [] path
  match target.last with
  | .reached => .error .exists
  | .name s =>
    match ← disk.node?.child target.directory s with
    | some _ => .error .exists
    | none => .ok ((), disk.addDirectory (target.directory ++ [s]))

/-- Opens a file and cuts it to nothing. It is known by its number; a special file has none. -/
def opened (disk : Disk) (path : String) : Except FileError (Option Nat × Disk) := do
  let target ← disk.node?.resolve path
  match target.last with
  | .reached => .error .isDirectory
  | .name s =>
    if target.slashed then .error .isDirectory
    else
      match ← disk.node?.child target.directory s with
      | none => .ok (some disk.fresh, disk.addFile (target.directory ++ [s]))
      | some (.file number) => .ok (some number, disk.fill number .empty)
      | some .special => .ok (none, disk)
      | some _ => .error .isDirectory

/-- Whether two names stand for one file. -/
def isSameFile : Inode → Option Inode → Bool
  | .file number, some (.file other) => number == other
  | _, _ => false

/-- Moves a file or a link, which replaces what is no directory. Two names of one file are left alone. -/
def renamed (disk : Disk) (source destination : String) : Except FileError (Unit × Disk) := do
  let source ← disk.node?.locate [] source
  let destination ← disk.node?.locate [] destination
  match source.last, destination.last with
  | .name old, .name new =>
    match ← disk.node?.child source.directory old with
    | none => .error .notFound
    | some .directory => .error .isDirectory
    | some node =>
      let place ← disk.node?.child destination.directory new
      if source.slashed || destination.slashed then .error .notDirectory
      else if place == some .directory then .error .isDirectory
      else if isSameFile node place then .ok ((), disk)
      else .ok ((), disk.move (source.directory ++ [old]) (destination.directory ++ [new]))
  | _, _ => .error .busy

/-- Removes a name that is no directory. -/
def removed (disk : Disk) (path : String) : Except FileError (Unit × Disk) := do
  let target ← disk.node?.locate [] path
  match target.last with
  | .reached => .error .isDirectory
  | .name s =>
    match ← disk.node?.child target.directory s with
    | none => .error .notFound
    | some .directory => .error .isDirectory
    | some _ =>
      if target.slashed then .error .notDirectory
      else .ok ((), disk.setNode (target.directory ++ [s]) none nofun)

/-- The bytes of a file. -/
def read (disk : Disk) (path : String) : Except FileError ByteArray := do
  let target ← disk.node?.resolve path
  match target.last with
  | .reached => .error .isDirectory
  | .name s =>
    match ← disk.node?.child target.directory s with
    | none => .error .notFound
    | some (.file number) => if target.slashed then .error .notDirectory else .ok (disk.contents number)
    | some .special => .ok .empty
    | some _ => .error .isDirectory

/-! ## Calls -/

/-- What becomes of the next call, and the disk after that. -/
def next (disk : Disk) : Fate × Disk :=
  (disk.fates.headD .served, { disk with fates := disk.fates.tail })

/-- A call that is served unless the system refuses. -/
def served {α : Type} (operation : Disk → Except FileError (α × Disk)) (disk : Disk) :
    Except FileError α × Disk :=
  match disk.next with
  | (.refused e _, disk) => (.error e, disk)
  | (.served, disk) =>
    match operation disk with
    | .ok (a, disk) => (.ok a, disk)
    | .error e => (.error e, disk)

/-- The bytes of an opened file replaced. -/
def fillHandle (disk : Disk) (bytes : ByteArray) : Option Nat → Disk
  | some number => disk.fill number bytes
  | none => disk

/-- Writes into a file that was opened. -/
def writeAll (handle : Option Nat) (bytes : ByteArray) (disk : Disk) : Except FileError Unit × Disk :=
  match disk.next with
  | (.refused e written, disk) => (.error e, disk.fillHandle (bytes.extract 0 written) handle)
  | (.served, disk) => (.ok (), disk.fillHandle bytes handle)

instance : FileSystem Disk where
  Handle := Option Nat
  isDirectory path disk := (disk.next.1 == .served && disk.leadsToDirectory path, disk.next.2)
  makeDirectory path := served (·.madeDirectory path)
  create path := served (·.opened path)
  writeAll := writeAll
  sync _ := served fun disk => .ok ((), disk)
  rename source destination := served (·.renamed source destination)
  remove path := served (·.removed path)

end Disk

end LunchRush
