/-!
# Punycode

The labels of a domain are written with the characters of ASCII alone: those of the label that are
ASCII, then the others as differences in a variable base that adapts as it goes.
-/

namespace LunchRush.Url.Punycode

/-- The threshold of a digit. -/
def threshold (position bias : Nat) : Nat :=
  if position ≤ bias then 1 else if bias + 26 ≤ position then 26 else position - bias

/-- The part of the bias that comes from a large difference. -/
def spread : (fuel : Nat) → Nat → Nat → Nat × Nat
  | 0, delta, k => (delta, k)
  | fuel + 1, delta, k => if 455 < delta then spread fuel (delta / 35) (k + 36) else (delta, k)

/-- The bias after a difference, when `count` characters are known. -/
def adapt (delta count : Nat) (first : Bool) : Nat :=
  let delta := if first then delta / 700 else delta / 2
  let (delta, k) := spread delta (delta + delta / count) 0
  k + 36 * delta / (delta + 38)

/-- The character of a digit. -/
def digitChar (n : Nat) : Char := if n < 26 then Char.ofNat (97 + n) else Char.ofNat (22 + n)

/-- The digit of a character. -/
def digit? (c : Char) : Option Nat :=
  if c.isDigit then some (c.toNat - 22)
  else if c.isAlpha then some (c.toLower.toNat - 97)
  else none

/-- The digits of a difference. -/
def digits (bias : Nat) : (fuel position delta : Nat) → List Char
  | 0, _, _ => []
  | fuel + 1, position, delta =>
    let t := threshold position bias
    if delta < t then [digitChar delta]
    else
      digitChar (t + (delta - t) % (36 - t)) ::
        digits bias fuel (position + 36) ((delta - t) / (36 - t))

/-- How far a label has been written. -/
structure Written where
  output : List Char
  next : Nat
  delta : Nat
  bias : Nat
  count : Nat

/-- Writes the characters with number `w.next`, of which the label has some. -/
def writeLevel (basic : Nat) (label : List Char) (w : Written) : Written :=
  label.foldl (fun w c =>
    if c.toNat < w.next then { w with delta := w.delta + 1 }
    else if c.toNat = w.next then
      { w with
        output := w.output ++ digits w.bias (w.delta + 1) 36 w.delta
        delta := 0
        bias := adapt w.delta (w.count + 1) (w.count == basic)
        count := w.count + 1 }
    else w) w

/-- Writes the characters that are left, the lowest first. -/
def writeRest (basic : Nat) (label : List Char) : (fuel : Nat) → Written → Written
  | 0, w => w
  | fuel + 1, w =>
    match ((label.map Char.toNat).filter (w.next ≤ ·)).min? with
    | none => w
    | some next =>
      let w := { w with delta := w.delta + (next - w.next) * (w.count + 1), next }
      let w := writeLevel basic label w
      writeRest basic label fuel { w with delta := w.delta + 1, next := next + 1 }

/-- A label in ASCII. -/
def encode (label : List Char) : List Char :=
  let basic := label.filter fun c => c.toNat < 0x80
  let start := basic ++ if basic.isEmpty then [] else ['-']
  (writeRest basic.length label label.length ⟨start, 0x80, 0, 72, basic.length⟩).output

/-- A difference and what follows it. -/
def difference? (bias : Nat) : List Char → (position weight sum : Nat) → Option (Nat × List Char)
  | [], _, _, _ => none
  | c :: rest, position, weight, sum =>
    match digit? c with
    | none => none
    | some d =>
      let t := threshold position bias
      if d < t then some (sum + d * weight, rest)
      else difference? bias rest (position + 36) (weight * (36 - t)) (sum + d * weight)

/-- Reads the differences that are left into a label. -/
def readRest? : (fuel : Nat) → (label : List Char) → (next index bias : Nat) → (first : Bool) →
    List Char → Option (List Char)
  | 0, _, _, _, _, _, _ => none
  | _ + 1, label, _, _, _, _, [] => some label
  | fuel + 1, label, next, index, bias, first, cs => do
    let (delta, rest) ← difference? bias cs 36 1 0
    let count := label.length + 1
    let next := next + (index + delta) / count
    let index := (index + delta) % count
    if 0x10ffff < next || (0xd800 ≤ next && next ≤ 0xdfff) then none
    else
      let label := label.take index ++ Char.ofNat next :: label.drop index
      readRest? fuel label next (index + 1) (adapt delta count first) false rest

/-- The label that a text in ASCII stands for. -/
def decode? (cs : List Char) : Option (List Char) :=
  let tail := (cs.reverse.takeWhile (· != '-')).reverse
  let basic := cs.take (cs.length - tail.length - 1)
  readRest? (cs.length + 1) basic 0x80 0 72 true tail

end LunchRush.Url.Punycode
