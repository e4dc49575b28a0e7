/-!
# Paths

A path is a text of segments between slashes. What a path names is settled by walking its segments
in a tree of files; its parent and its name are settled on the text alone.
-/

namespace LunchRush.Path

/-- The texts between the slashes. -/
def segments (path : String) : List String := (path.toList.splitOn '/').map String.ofList

/-- Reversed segments without those at the front that name nothing: empty ones and dots, as long as
others come before them. -/
def significant : List String → List String
  | [] => []
  | [first] => [first]
  | s :: before => if s = "" || s = "." then significant before else s :: before

/-- The path of reversed segments. -/
def ofReversed : List String → String
  | [""] => "/"
  | reversed => String.intercalate "/" reversed.reverse

/-- The path without its last segment; the empty path and the root have none. -/
def parent? (path : String) : Option String :=
  match significant (segments path).reverse with
  | [] => none
  | [""] => none
  | [_] => some ""
  | _ :: before => some (ofReversed (significant before))

/-- The last segment, unless it is a dot or two. -/
def name? (path : String) : Option String :=
  match significant (segments path).reverse with
  | name :: _ => if name = "" || name = "." || name = ".." then none else some name
  | [] => none

/-- The path of an entry of a directory. -/
def join (directory name : String) : String :=
  if directory.isEmpty then name
  else if directory.toList.getLast? == some '/' then directory ++ name
  else directory ++ "/" ++ name

/-- The path beside `path` whose name is that of `path` with `ending` after it. -/
def besides (path ending : String) : String :=
  match name? path with
  | some name => join ((parent? path).getD "") (name ++ ending)
  | none => join path ending

end LunchRush.Path
