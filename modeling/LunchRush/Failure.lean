/-!
# Failures of a command

What a command says when it fails: what it was about to do, and then one cause after the other down
to the first.
-/

namespace LunchRush

/-- What is said about a failure, from the outside in. -/
structure Failure where
  message : String
  causes : List String
deriving DecidableEq, Repr

namespace Failure

/-- The message and all causes. -/
def chain (f : Failure) : List String := f.message :: f.causes

/-- The failure as the cause of another one. -/
def within (f : Failure) (message : String) : Failure := ⟨message, f.chain⟩

/-- A text whose later lines start under its first one. -/
def hanging (first later : String) (s : String) : String := first ++ s.replace "\n" ("\n" ++ later)

/-- The causes one below the other. The only cause stands alone, several are numbered. -/
def causeLines : List String → List String
  | [] => []
  | [cause] => [hanging "    " "    " cause]
  | causes => causes.zipIdx.map fun (cause, i) => hanging s!"    {i}: " "       " cause

/-- What is printed about a failure. -/
def report (f : Failure) : String :=
  let causes := causeLines f.causes
  let lines := s!"Error: {f.message}" :: if causes.isEmpty then [] else ["", "Caused by:"] ++ causes
  String.join (lines.map (· ++ "\n"))

end Failure

end LunchRush
