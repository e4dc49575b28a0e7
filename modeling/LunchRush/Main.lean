import LunchRush.Command.Run
import LunchRush.Url.International
/-!
# The program

Reads the arguments, the environment and the files that a command names, runs the command, and
writes back what it changed. The program has no network: no request is answered.
-/

namespace LunchRush

/-- A network on which nobody answers. -/
inductive Offline where
  | offline

instance : Http.Network Offline := ⟨fun _ network => (.error .broken, network)⟩

attribute [local instance] Url.Names.folded

namespace Main

/-- What stands at a path on the disk. -/
def look (path : String) : IO (Option Entry) := do
  try return some (.file (← IO.FS.readBinFile path))
  catch
    | .noFileOrDirectory .. => return none
    | _ => return some .directory

/-- The tree with what stands at a path and at the directories above it. -/
def withPath (tree : FileTree) (path : String) : IO FileTree := do
  let names := (Path.segments path).filter (!·.isEmpty)
  let mut tree := tree
  for i in [1 : names.length + 1] do
    let location := names.take i
    if let some entry ← look (String.intercalate "/" location) then
      tree := tree.put location entry
  return tree

/-- The paths that a task names. -/
def pathsOf : Task → List String
  | .seed _ fixtures _ _ => [fixtures]
  | .load order => [order.fixtures, Path.join order.outDir Summary.fileName]
  | .inspect fixtures _ => [fixtures]

/-- Writes what is new in a tree. -/
def store (before after : FileTree) : IO Unit :=
  for (location, entry) in after.entries.reverse do
    if before.get? location != some entry then
      let path := String.intercalate "/" location
      match entry with
      | .directory => IO.FS.createDirAll path
      | .file bytes => IO.FS.writeBinFile path bytes

/-- The variables that count. -/
def environment : IO (List (String × String)) := do
  let names := ["ORDERLOAD_BASE_URL", "ORDERLOAD_TOKEN"]
  names.filterMapM fun name => return (← IO.getEnv name).map ((name, ·))

/-- Runs the command that the arguments name. -/
def run (args : List String) : IO UInt32 := do
  let environment ← environment
  let paths := match Command.ofArguments environment args with
    | .ok command => pathsOf command.task
    | .error _ => []
  let files ← paths.foldlM withPath FileTree.empty
  let entropy := (← IO.monoNanosNow).toUInt64
  let (ending, after) := Command.runArguments environment args entropy ⟨files, Offline.offline⟩
  store files after.files
  IO.print ending.output
  IO.eprint ending.errors
  return ending.code.toUInt32

end Main

end LunchRush

def main (args : List String) : IO UInt32 := LunchRush.Main.run args
