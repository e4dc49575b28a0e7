import LunchRush.Yaml.Cursor
/-!
# Gaps in scalars

White space inside a scalar that is not written as a block: blanks on one line stay as they are; a
line break becomes a space, and further breaks stay. Blanks at a line's end and start are dropped.
-/

namespace LunchRush.Yaml

/-- The white space between two words of a scalar. -/
structure Gap where
  /-- The blanks, as long as no line has ended. -/
  blanks : List Char
  /-- Whether a line has ended. -/
  broken : Bool
  /-- The first line break; there is none when an escape has ended the line. -/
  first : Option Char
  /-- The further line breaks. -/
  more : List Char
deriving Repr

namespace Gap

def none : Gap := ⟨[], false, Option.none, []⟩

/-- A gap whose first line break was escaped. -/
def escaped : Gap := ⟨[], true, Option.none, []⟩

/-- What the gap stands for between two words. -/
def text (g : Gap) : List Char :=
  if g.broken then
    match g.first with
    | some '\n' => if g.more.isEmpty then [' '] else g.more
    | some c => c :: g.more
    | Option.none => g.more
  else g.blanks

/-- Reads on in a gap. In a plain scalar a tab may not stand where the indentation `indent` of a
further line is expected. -/
def read? (indent : Nat) : (fuel : Nat) → Gap → Cursor → Option (Gap × Cursor)
  | 0, g, c => some (g, c)
  | fuel + 1, g, c =>
    match c.peek with
    | Option.none => some (g, c)
    | some ch =>
      if isBlank ch then
        if g.broken && c.column < indent && ch == '\t' then Option.none
        else if g.broken then read? indent fuel g (c.skip 1)
        else read? indent fuel { g with blanks := g.blanks ++ [ch] } (c.skip 1)
      else if isBreak ch then
        let new := Cursor.breakChar ch
        if g.broken then read? indent fuel { g with more := g.more ++ [new] } c.skipBreak
        else read? indent fuel ⟨[], true, some new, []⟩ c.skipBreak
      else some (g, c)

end Gap

end LunchRush.Yaml
