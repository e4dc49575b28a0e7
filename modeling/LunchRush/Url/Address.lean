import LunchRush.Text.Quoted
import LunchRush.Url.Percent
/-!
# Addresses

The two kinds of numeric addresses that a host can be. The older one allows parts in base 8 and 16
and lets the last part fill the missing bytes; the newer one has eight parts in base 16, of which
one run of zeros may be left out.
-/

namespace LunchRush.Url

/-- The parts between separators. -/
def splitOn (separator : Char) : List Char → List (List Char)
  | [] => [[]]
  | c :: rest =>
    if c = separator then [] :: splitOn separator rest
    else
      match splitOn separator rest with
      | part :: parts => (c :: part) :: parts
      | [] => [[c]]

/-- The number of a row of digits in a base. -/
def numberIn? (base : Nat) (cs : List Char) : Option Nat :=
  cs.foldl (fun n c => do
    let digit ← hexDigit? c
    if digit < base then some (base * (← n) + digit) else none) (some 0)

/-- A part of an older address. -/
def part? : List Char → Option Nat
  | [] => none
  | '0' :: 'x' :: digits => numberIn? 16 digits
  | '0' :: 'X' :: digits => numberIn? 16 digits
  | '0' :: d :: digits => numberIn? 8 (d :: digits)
  | digits => numberIn? 10 digits

/-- The parts of a name, without an empty one at the end. -/
def nameParts (name : List Char) : List (List Char) :=
  let parts := splitOn '.' name
  if 1 < parts.length && parts.getLast?.any List.isEmpty then parts.dropLast else parts

/-- Whether the last part of a name is a number, so that the name must be an address. -/
def endsInNumber (name : List Char) : Bool :=
  match (nameParts name).getLast? with
  | some last => !last.isEmpty && (last.all Char.isDigit || (part? last).isSome)
  | none => false

/-- The older address of a name. -/
def ipv4? (name : List Char) : Option Nat :=
  let parts := nameParts name
  if 4 < parts.length then none
  else do
    let numbers ← parts.mapM part?
    let last ← numbers.getLast?
    let leading := numbers.dropLast
    if leading.any (255 < ·) || Nat.pow 256 (4 - leading.length) ≤ last then none
    else some ((leading.zipIdx.map fun (n, i) => n * Nat.pow 256 (3 - i)).foldr (· + ·) last)

/-- An older address as text. -/
def ipv4Text (address : Nat) : String :=
  String.intercalate "." ([3, 2, 1, 0].map fun i => toString (address / Nat.pow 256 i % 256))

/-- A part of an older address inside a newer one: at most 255, without zeros in front. -/
def strictPart? (cs : List Char) : Option Nat :=
  if cs.isEmpty || !cs.all Char.isDigit || (cs.head? == some '0' && 1 < cs.length) then none
  else (numberIn? 10 cs).filter (· < 256)

/-- An older address as two parts of a newer one. -/
def embedded? (cs : List Char) : Option (List Nat) := do
  match ← (splitOn '.' cs).mapM strictPart? with
  | [a, b, c, d] => some [a * 256 + b, c * 256 + d]
  | _ => none

/-- The parts of a newer address after `pieces`, and where among them the zeros are left out. -/
def pieces? : (fuel : Nat) → List Nat → (gap : Option Nat) → List Char → Option (List Nat × Option Nat)
  | 0, _, _, _ => none
  | _ + 1, pieces, gap, [] => some (pieces, gap)
  | fuel + 1, pieces, gap, c :: rest =>
    let full := 8 ≤ pieces.length + if gap.isSome then 1 else 0
    if full then none
    else if c = ':' then
      if gap.isSome then none else pieces? fuel pieces (some pieces.length) rest
    else
      let cs := c :: rest
      let count := ((cs.take 4).takeWhile fun c => (hexDigit? c).isSome).length
      let digits := cs.take count
      match cs.drop count with
      | '.' :: _ =>
        if count = 0 || 6 < pieces.length + (if gap.isSome then 1 else 0) then none
        else (embedded? cs).map fun last => (pieces ++ last, gap)
      | [':'] => none
      | ':' :: rest => (numberIn? 16 digits).bind fun n => pieces? fuel (pieces ++ [n]) gap rest
      | [] => (numberIn? 16 digits).map fun n => (pieces ++ [n], gap)
      | _ => none

/-- The eight parts of a newer address. -/
def ipv6? (cs : List Char) : Option (List Nat) := do
  let start ← match cs with
    | ':' :: ':' :: _ => some (cs.drop 1)
    | ':' :: _ => none
    | _ => some cs
  let (pieces, gap) ← pieces? (cs.length + 1) [] none start
  match gap with
  | none => if pieces.length = 8 then some pieces else none
  | some i => some (pieces.take i ++ List.replicate (8 - pieces.length) 0 ++ pieces.drop i)

/-- How many zeros a list starts with. -/
def zeros (ns : List Nat) : Nat := (ns.takeWhile (· == 0)).length

/-- Where the first of the longest runs of zeros starts, if it has at least two. -/
def longestZeros? (ns : List Nat) : Option (Nat × Nat) :=
  let runs := (List.range ns.length).map fun i => (i, zeros (ns.drop i))
  (runs.foldl (fun best run => if best.2 < run.2 then run else best) (0, 0) |> some).filter (2 ≤ ·.2)

/-- A newer address as text. -/
def ipv6Text (ns : List Nat) : String :=
  let shown (ns : List Nat) : String :=
    String.intercalate ":" (ns.map fun n => String.ofList (Text.hexDigits n))
  match longestZeros? ns with
  | some (start, count) => shown (ns.take start) ++ "::" ++ shown (ns.drop (start + count))
  | none => shown ns

end LunchRush.Url
