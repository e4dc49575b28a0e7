import LunchRush.Files.System
/-!
# Trees of files

What a disk holds below the working directory: files with their bytes, and directories. Every
operation answers with the new tree or says why it failed; a failed operation changes nothing.
-/

namespace LunchRush

/-- What stands at a location. -/
inductive Entry where
  | file (bytes : ByteArray)
  | directory

/-- Files are the same when their bytes are. -/
instance : DecidableEq Entry
  | .directory, .directory => isTrue rfl
  | .directory, .file _ => isFalse nofun
  | .file _, .directory => isFalse nofun
  | .file ⟨a⟩, .file ⟨b⟩ =>
    if h : a = b then isTrue (by rw [h]) else isFalse fun e => h (by injection e with e; injection e)

/-- Files and directories by their locations. The working directory is always there. -/
structure FileTree where
  entries : List (Location × Entry)
deriving DecidableEq

namespace FileTree

def empty : FileTree := ⟨[]⟩

/-- What stands at a location. -/
def get? (t : FileTree) : Location → Option Entry
  | [] => some .directory
  | location => t.entries.lookup location

/-- Puts an entry at a location. -/
def put (t : FileTree) (location : Location) (entry : Entry) : FileTree :=
  ⟨(location, entry) :: t.entries.filter (·.1 != location)⟩

/-- Takes away what stands at a location. -/
def erase (t : FileTree) (location : Location) : FileTree :=
  ⟨t.entries.filter (·.1 != location)⟩

/-- The entry of a directory under a name. -/
def child (t : FileTree) (directory : Location) (name : String) : Except FileError (Option Entry) :=
  if 255 < name.utf8ByteSize then .error .nameTooLong else .ok (t.get? (directory ++ [name]))

/-- The directory that is reached from another one by going down some segments. -/
def walk (t : FileTree) (directory : Location) : List String → Except FileError Location
  | [] => .ok directory
  | segment :: rest =>
    if segment = "" || segment = "." then walk t directory rest
    else if segment = ".." then walk t directory.dropLast rest
    else
      match t.child directory segment with
      | .error e => .error e
      | .ok none => .error .notFound
      | .ok (some (.file _)) => .error .notDirectory
      | .ok (some .directory) => walk t (directory ++ [segment]) rest

/-- Where a path ends. -/
def locate (t : FileTree) (path : String) : Except FileError Target :=
  Target.ofPath (t.walk []) path

/-- The bytes of a file. -/
def read (t : FileTree) (path : String) : Except FileError ByteArray := do
  let target ← t.locate path
  match target.last with
  | .reached => .error .isDirectory
  | .name s =>
    match ← t.child target.directory s with
    | none => .error .notFound
    | some .directory => .error .isDirectory
    | some (.file bytes) => if target.slashed then .error .notDirectory else .ok bytes

/-- The text of a file. -/
def readText (t : FileTree) (path : String) : Except FileError String := do
  match String.fromUTF8? (← t.read path) with
  | some s => .ok s
  | none => .error .notText

/-- The location at which a file can be written. -/
def opened (t : FileTree) (path : String) : Except FileError Location := do
  let target ← t.locate path
  match target.last with
  | .reached => .error .isDirectory
  | .name s =>
    if target.slashed then .error .isDirectory
    else
      match ← t.child target.directory s with
      | some .directory => .error .isDirectory
      | _ => .ok (target.directory ++ [s])

/-- Writes a file, which replaces an older one. -/
def write (t : FileTree) (path : String) (bytes : ByteArray) : Except FileError FileTree :=
  (t.opened path).map (t.put · (.file bytes))

/-- Whether a path leads to a directory. -/
def isDirectory (t : FileTree) (path : String) : Bool :=
  match t.locate path with
  | .error _ => false
  | .ok target =>
    match target.last with
    | .reached => true
    | .name s => t.get? (target.directory ++ [s]) == some .directory

/-- Makes a directory in one that exists. -/
def makeDirectory (t : FileTree) (path : String) : Except FileError FileTree := do
  let target ← t.locate path
  match target.last with
  | .reached => .error .exists
  | .name s =>
    match ← t.child target.directory s with
    | some _ => .error .exists
    | none => .ok (t.put (target.directory ++ [s]) .directory)

/-- Moves a file, which replaces the file at the new path. -/
def rename (t : FileTree) (source destination : String) : Except FileError FileTree := do
  let source ← t.locate source
  let destination ← t.locate destination
  match source.last, destination.last with
  | .name old, .name new =>
    match ← t.child source.directory old with
    | none => .error .notFound
    | some .directory => .error .isDirectory
    | some (.file bytes) =>
      let target ← t.child destination.directory new
      if source.slashed || destination.slashed then .error .notDirectory
      else if target == some .directory then .error .isDirectory
      else
        .ok ((t.erase (source.directory ++ [old])).put (destination.directory ++ [new]) (.file bytes))
  | _, _ => .error .busy

/-- Removes a file. -/
def remove (t : FileTree) (path : String) : Except FileError FileTree := do
  let target ← t.locate path
  match target.last with
  | .reached => .error .isDirectory
  | .name s =>
    match ← t.child target.directory s with
    | none => .error .notFound
    | some .directory => .error .isDirectory
    | some (.file _) =>
      if target.slashed then .error .notDirectory else .ok (t.erase (target.directory ++ [s]))

/-- What a call leaves that brings the next tree or fails. -/
def served (t : FileTree) : Except FileError FileTree → Except FileError Unit × FileTree
  | .ok t' => (.ok (), t')
  | .error e => (.error e, t)

instance : FileSystem FileTree where
  Handle := Location
  isDirectory path t := (t.isDirectory path, t)
  makeDirectory path t := t.served (t.makeDirectory path)
  create path t :=
    match t.opened path with
    | .ok location => (.ok location, t.put location (.file .empty))
    | .error e => (.error e, t)
  writeAll location bytes t := (.ok (), t.put location (.file bytes))
  sync _ t := (.ok (), t)
  rename source destination t := t.served (t.rename source destination)
  remove path t := t.served (t.remove path)

/-- The paths of all entries in order; those of directories end in a slash. -/
def paths (t : FileTree) : List String :=
  let written := t.entries.map fun (location, entry) =>
    String.intercalate "/" location ++ if entry == .directory then "/" else ""
  written.mergeSort (fun a b => a ≤ b)

end FileTree

end LunchRush
