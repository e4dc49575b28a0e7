import LunchRush.Files.Path
/-!
# Systems of files

What a program asks of a system of files, call by call. Every call says whether it went well and leaves
the system in some state, also where it failed. Directories are made from the top down, and a file is
opened, written and brought to the disk in three calls.
-/

namespace LunchRush

/-- Why an operation on files failed. -/
inductive FileError where
  | notFound
  | notDirectory
  | isDirectory
  | exists
  | busy
  | nameTooLong
  | tooManyLinks
  | holdsNul
  | notText
  /-- A failure of the disk itself, in the words of the system. -/
  | other (text : String)
deriving DecidableEq, Repr

/-- What is said about it. -/
def FileError.message : FileError → String
  | .notFound => "No such file or directory (os error 2)"
  | .notDirectory => "Not a directory (os error 20)"
  | .isDirectory => "Is a directory (os error 21)"
  | .exists => "File exists (os error 17)"
  | .busy => "Device or resource busy (os error 16)"
  | .nameTooLong => "File name too long (os error 36)"
  | .tooManyLinks => "Too many levels of symbolic links (os error 40)"
  | .holdsNul => "file name contained an unexpected NUL byte"
  | .notText => "stream did not contain valid UTF-8"
  | .other text => text

/-! ## Where a path ends -/

/-- The names from the working directory down to a file or directory. -/
abbrev Location := List String

/-- What the last segment of a path says. -/
inductive LastSegment where
  | name (s : String)
  /-- A dot or two, or nothing: the segment names a directory that the walk has reached. -/
  | reached
deriving DecidableEq, Repr

/-- The end of a path. -/
structure Target where
  /-- The directory in which the last name is looked up, or the one that is reached. -/
  directory : Location
  last : LastSegment
  /-- Whether slashes stand at the end, so that only a directory is meant. -/
  slashed : Bool
deriving DecidableEq, Repr

/-- Where a path ends, by a walk along the segments before its last name. -/
def Target.ofPath (walk : List String → Except FileError Location) (path : String) :
    Except FileError Target :=
  if path.toList.contains '\x00' then .error .holdsNul
  else if path.isEmpty then .error .notFound
  else if 4096 ≤ path.utf8ByteSize then .error .nameTooLong
  else
    let reversed := (Path.segments path).reverse
    let slashed := reversed.head? == some ""
    match reversed.dropWhile (· == "") with
    | [] => .ok ⟨[], .reached, slashed⟩
    | last :: before =>
      if last = "." || last = ".." then
        (walk (before.reverse ++ [last])).map (⟨·, .reached, slashed⟩)
      else (walk before.reverse).map (⟨·, .name last, slashed⟩)

/-! ## Calls -/

/-- A state that takes calls on files. -/
class FileSystem (φ : Type) where
  /-- What an opened file is known by. -/
  Handle : Type
  isDirectory : String → φ → Bool × φ
  /-- Makes a directory in one that exists. -/
  makeDirectory : String → φ → Except FileError Unit × φ
  /-- Opens a file for writing. It is made if need be, and cut to nothing else. -/
  create : String → φ → Except FileError Handle × φ
  writeAll : Handle → ByteArray → φ → Except FileError Unit × φ
  sync : Handle → φ → Except FileError Unit × φ
  /-- Moves a file, which replaces the file at the new path. -/
  rename : (source destination : String) → φ → Except FileError Unit × φ
  /-- Removes a file. -/
  remove : String → φ → Except FileError Unit × φ

namespace FileSystem

variable {φ : Type} [FileSystem φ]

/-- A failure to make a directory does not count where there is one. -/
def unlessDirectory (path : String) (e : FileError) (files : φ) : Except FileError Unit × φ :=
  match isDirectory path files with
  | (true, files) => (.ok (), files)
  | (false, files) => (.error e, files)

/-- Makes a directory unless it is there. -/
def ensureDirectory (path : String) (files : φ) : Except FileError Unit × φ :=
  match makeDirectory path files with
  | (.ok (), files) => (.ok (), files)
  | (.error e, files) => unlessDirectory path e files

/-- Makes a directory and those above it. When it fails the directories above it stay. -/
def makeDirectories : (fuel : Nat) → (path : String) → φ → Except FileError Unit × φ
  | 0, _, files => (.error .notFound, files)
  | fuel + 1, path, files =>
    if path.isEmpty then (.ok (), files)
    else
      match makeDirectory path files with
      | (.ok (), files) => (.ok (), files)
      | (.error .notFound, files) =>
        match Path.parent? path with
        | none => (.error .notFound, files)
        | some parent =>
          match makeDirectories fuel parent files with
          | (.error e, files) => (.error e, files)
          | (.ok (), files) => ensureDirectory path files
      | (.error e, files) => unlessDirectory path e files

/-- Writes a file and waits until the disk has it. -/
def writeAndSync (path : String) (bytes : ByteArray) (files : φ) : Except FileError Unit × φ :=
  match create path files with
  | (.error e, files) => (.error e, files)
  | (.ok handle, files) =>
    match writeAll handle bytes files with
    | (.error e, files) => (.error e, files)
    | (.ok (), files) => sync handle files

end FileSystem

end LunchRush
