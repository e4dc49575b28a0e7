import LunchRush.Failure
import LunchRush.Files.Tree
import LunchRush.Json.Printer
import LunchRush.Load.Summary
/-!
# Reports of load runs

A run leaves its summary behind as an indented JSON file in a directory that is made if need be.
-/

namespace LunchRush.Summary

/-- The name of the file in its directory. -/
def fileName : String := "summary.json"

/-- Writes the summary into a directory, and says where. -/
def write (s : Summary) (directory : String) (files : FileTree) :
    Except Failure String × FileTree :=
  match FileSystem.makeDirectories (directory.length + 1) directory files with
  | (.error e, files) => (.error ⟨s!"create output dir {directory}", [e.message]⟩, files)
  | (.ok (), files) =>
    let path := Path.join directory fileName
    match files.write path (Json.pretty s.toJson).toUTF8 with
    | .error e => (.error ⟨s!"write {path}", [e.message]⟩, files)
    | .ok files => (.ok path, files)

end LunchRush.Summary
