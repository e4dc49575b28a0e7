import LunchRush.Yaml.Gap
/-!
# Plain scalars

A scalar without quotes goes on until an indicator ends it, or a line that is not indented enough.
Inside brackets the characters of brackets and the comma end it too.
-/

namespace LunchRush.Yaml

/-- The characters that end a plain scalar inside brackets. -/
def isFlowIndicator (c : Char) : Bool :=
  c == ',' || c == '[' || c == ']' || c == '\x7b' || c == '\x7d'

/-- The characters of a plain scalar up to the next gap or the end of the scalar. A colon right
before a bracket is an error inside brackets. -/
def plainWord? (flow : Bool) : (fuel : Nat) → Cursor → Option (List Char × Cursor)
  | 0, c => some ([], c)
  | fuel + 1, c =>
    match c.peek with
    | none => some ([], c)
    | some ch =>
      if isBlank ch || isBreak ch then some ([], c)
      else if flow && ch == ':' && c.peek2.any (fun next => isFlowIndicator next || next == '?') then
        none
      else if ch == ':' && c.gapAfter 1 then some ([], c)
      else if flow && isFlowIndicator ch then some ([], c)
      else (plainWord? flow fuel (c.skip 1)).map fun (word, c) => (ch :: word, c)

/-- The rest of a plain scalar after the gap `g`, whether its last gap has a line break, and the
place after it. -/
def plainFrom? (flow : Bool) (indent : Nat) :
    (fuel : Nat) → Gap → Cursor → Option (List Char × Bool × Cursor)
  | 0, g, c => some ([], g.broken, c)
  | fuel + 1, g, c =>
    if c.atDocumentMarker || c.peek == some '#' then some ([], g.broken, c)
    else
      match plainWord? flow (c.rest.length + 1) c with
      | none => none
      | some (word, c) =>
        let before := if word.isEmpty then [] else g.text ++ word
        let last := if word.isEmpty then g else Gap.none
        if c.isEnd || !c.atGap then some (before, last.broken, c)
        else
          match Gap.read? indent (c.rest.length + 1) last c with
          | none => none
          | some (gap, c) =>
            if !flow && c.column < indent then some (before, gap.broken, c)
            else (plainFrom? flow indent fuel gap c).map fun (text, broken, c) =>
              (before ++ text, broken, c)

/-- A plain scalar. -/
def plain? (flow : Bool) (indent : Nat) (c : Cursor) : Option (List Char × Bool × Cursor) :=
  plainFrom? flow indent (c.rest.length + 1) Gap.none c

end LunchRush.Yaml
