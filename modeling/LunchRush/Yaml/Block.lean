import LunchRush.Yaml.Cursor
/-!
# Block scalars

A scalar whose lines are its text: all that is indented deeper than the block around it. A literal
one keeps its line breaks, a folded one joins its lines. A header says how deep the text is
indented, if its first line does not show it, and what becomes of the line breaks at the end.
-/

namespace LunchRush.Yaml

/-- What becomes of the line breaks at the end of a block scalar. -/
inductive Chomp where
  /-- None is kept. -/
  | strip
  /-- The first is kept. -/
  | clip
  /-- All are kept. -/
  | keep
deriving DecidableEq, Repr

/-- The header of a block scalar. -/
structure BlockHeader where
  chomp : Chomp
  indent : Option Nat
deriving Repr

def chomp? : Option Char → Option Chomp
  | some '+' => some .keep
  | some '-' => some .strip
  | _ => none

/-- The digit of an indentation, from 1 to 9. -/
def indentDigit? : Option Char → Option (Option Nat)
  | some ch => if ch == '0' then none else if ch.isDigit then some (some (ch.toNat - '0'.toNat)) else some none
  | none => some none

/-- The two parts of a header in either order. -/
def blockHeader? (c : Cursor) : Option (BlockHeader × Cursor) := do
  match chomp? c.peek with
  | some chomp =>
    let indent ← indentDigit? c.peek2
    some (⟨chomp, indent⟩, c.skip (if indent.isSome then 2 else 1))
  | none =>
    match ← indentDigit? c.peek with
    | some indent =>
      match chomp? c.peek2 with
      | some chomp => some (⟨chomp, some indent⟩, c.skip 2)
      | none => some (⟨.clip, some indent⟩, c.skip 1)
    | none => some (⟨.clip, none⟩, c)

/-- Skips blanks and a comment up to the end of a line, and the line break. -/
def endOfLine? (c : Cursor) : Option Cursor :=
  let c := c.skipWhile isBlank
  let c := if c.peek == some '#' then c.skipWhile (fun ch => !isBreak ch) else c
  if !c.atBreakOrEnd then none
  else some (if c.isEnd then c else c.skipBreak)

/-- Reads the indentation of the next line of text and the empty lines before it. As long as the
indentation is not known (`none`) every space counts; the deepest line is returned. A tab may not
stand in the indentation. -/
def blockBreaks? (indent : Option Nat) :
    (fuel : Nat) → (deepest : Nat) → (breaks : List Char) → Cursor →
      Option (Nat × List Char × Cursor)
  | 0, deepest, breaks, c => some (deepest, breaks, c)
  | fuel + 1, deepest, breaks, c =>
    let limit := match indent with
      | some n => n - c.column
      | none => c.rest.length
    let spaces := (c.rest.take limit).takeWhile (· == ' ')
    let c := c.skip spaces.length
    let deepest := max deepest c.column
    if indent.all (c.column < ·) && c.peek == some '\t' then none
    else
      match c.peek with
      | some ch =>
        if isBreak ch then
          blockBreaks? indent fuel deepest (breaks ++ [Cursor.breakChar ch]) c.skipBreak
        else some (deepest, breaks, c)
      | none => some (deepest, breaks, c)

/-- The lines of a block scalar. `ended` is the break of the line before, `breaks` are those of the
empty lines after it, and `blank` says whether that line started with a blank. -/
def blockLines? (literal : Bool) (indent : Nat) :
    (fuel : Nat) → (ended : List Char) → (breaks : List Char) → (blank : Bool) → Cursor →
      Option (List Char × List Char × List Char × Cursor)
  | 0, ended, breaks, _, c => some ([], ended, breaks, c)
  | fuel + 1, ended, breaks, blank, c =>
    if c.column != indent || c.isEnd then some ([], ended, breaks, c)
    else
      let startsBlank := c.peek.any isBlank
      let joined :=
        if !literal && ended.head? == some '\n' && !blank && !startsBlank then
          if breaks.isEmpty then [' '] else []
        else ended
      let (line, c) := c.takeWhile (fun ch => !isBreak ch)
      let ended := (c.peek.map Cursor.breakChar).toList
      let c := if c.isEnd then c else c.skipBreak
      match blockBreaks? (some indent) (c.rest.length + 1) 0 [] c with
      | none => none
      | some (_, more, c) =>
        (blockLines? literal indent fuel ended more startsBlank c).map
          fun (text, ended, last, c) => (joined ++ breaks ++ line ++ text, ended, last, c)

/-- A block scalar from its indicator on, inside a block that is indented by `outer`, or by
nothing. -/
def block? (literal : Bool) (outer : Option Nat) (c : Cursor) : Option (List Char × Cursor) := do
  let (header, c) ← blockHeader? (c.skip 1)
  let c ← endOfLine? c
  let given := header.indent.map fun n => outer.getD 0 + n
  let (deepest, breaks, c) ← blockBreaks? given (c.rest.length + 1) 0 [] c
  let indent := given.getD (max (max deepest (outer.elim 0 (· + 1))) 1)
  let (text, ended, last, c) ← blockLines? literal indent (c.rest.length + 1) [] breaks false c
  match header.chomp with
  | .strip => some (text, c)
  | .clip => some (text ++ ended, c)
  | .keep => some (text ++ ended ++ last, c)

end LunchRush.Yaml
