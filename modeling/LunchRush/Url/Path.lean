import LunchRush.Url.Address
import LunchRush.Url.Percent
/-!
# Paths

The path of a URL that names a host is a list of segments. A segment of one dot is dropped and one
of two dots takes the segment before it away; either leaves an empty segment when it is the last. A
segment that names a drive is never taken away.
-/

namespace LunchRush.Url

/-- What a URL names below its host, or in the place of one. -/
inductive Path where
  /-- Segments, each after a slash. -/
  | segments (names : List String)
  /-- A name without a slash in front. -/
  | name (s : String)
deriving DecidableEq, Repr

/-- The path as it is written in a URL. -/
def Path.text : Path → String
  | .segments names => String.join (names.map ("/" ++ ·))
  | .name s => s

/-- A letter and a colon or a bar. -/
def isDrive : List Char → Bool
  | [letter, mark] => letter.isAlpha && (mark == ':' || mark == '|')
  | _ => false

/-- Dots, of which each may be written with a percent sign. -/
def dots? : List Char → Option Nat
  | [] => some 0
  | '.' :: rest => (dots? rest).map (· + 1)
  | '%' :: '2' :: 'e' :: rest => (dots? rest).map (· + 1)
  | '%' :: '2' :: 'E' :: rest => (dots? rest).map (· + 1)
  | _ => none

/-- The segments before a pair of dots, the last one first, without the one that the dots take
away. -/
def stepUp : List (List Char) → List (List Char)
  | [] => []
  | segment :: before => if isDrive segment then segment :: before else before

/-- Segments without dots. Those that are done come first in `done`, the last one first. -/
def resolve (done : List (List Char)) : List (List Char) → List (List Char)
  | [] => done.reverse
  | segment :: rest =>
    let isLast := rest.isEmpty
    match dots? segment with
    | some 1 => resolve (if isLast then [] :: done else done) rest
    | some 2 => resolve (if isLast then [] :: stepUp done else stepUp done) rest
    | _ => resolve (percentEncode inPath segment :: done) rest

/-- The path of some segments as they are written. -/
def Path.ofWritten (segments : List (List Char)) : Path :=
  .segments ((resolve [] segments).map String.ofList)

end LunchRush.Url
