/-!
# A place in a text

YAML gives a meaning to columns and lines, so a reader carries along how far it has come. A line
ends at a carriage return, a line feed, both together, or one of three other characters; the last
two of these are kept when lines are joined, the others become a line feed.
-/

namespace LunchRush.Yaml

def isBlank (c : Char) : Bool := c == ' ' || c == '\t'

/-- The characters that end a line. -/
def isBreak (c : Char) : Bool :=
  c == '\n' || c == '\r' || c == '\u0085' || c == '\u2028' || c == '\u2029'

/-- The characters of names: letters, digits, `_` and `-`. -/
def isNameChar (c : Char) : Bool := c.isAlphanum || c == '_' || c == '-'

/-- The characters that a YAML text may hold. -/
def isAllowed (c : Char) : Bool :=
  let n := c.toNat
  n == 0x09 || n == 0x0a || n == 0x0d || (0x20 ≤ n && n ≤ 0x7e) || n == 0x85 ||
    (0xa0 ≤ n && n ≤ 0xd7ff) || (0xe000 ≤ n && n ≤ 0xfffd) || 0x10000 ≤ n

/-- What is left of a text, and where that starts. -/
structure Cursor where
  rest : List Char
  index : Nat
  line : Nat
  column : Nat
deriving DecidableEq, Repr

namespace Cursor

def ofString (s : String) : Cursor := ⟨s.toList, 0, 0, 0⟩

/-- The next character. -/
def peek (c : Cursor) : Option Char := c.rest.head?

/-- The character after the next one. -/
def peek2 (c : Cursor) : Option Char := (c.rest.drop 1).head?

def isEnd (c : Cursor) : Bool := c.rest.isEmpty

/-- Whether the text ends here, or goes on with a line break. -/
def atBreakOrEnd (c : Cursor) : Bool := c.peek.all isBreak

/-- Whether the text ends here, or goes on with a blank or a line break. -/
def atGap (c : Cursor) : Bool := c.peek.all fun ch => isBlank ch || isBreak ch

/-- Whether a gap follows after `n` more characters. -/
def gapAfter (c : Cursor) (n : Nat) : Bool :=
  (c.rest.drop n).head?.all fun ch => isBlank ch || isBreak ch

/-- Past `n` characters of the same line. -/
def skip (c : Cursor) (n : Nat) : Cursor :=
  ⟨c.rest.drop n, c.index + n, c.line, c.column + n⟩

/-- Past a line break; the two characters of a Windows line break are one. -/
def skipBreak (c : Cursor) : Cursor :=
  match c.rest with
  | '\r' :: '\n' :: rest => ⟨rest, c.index + 2, c.line + 1, 0⟩
  | _ :: rest => ⟨rest, c.index + 1, c.line + 1, 0⟩
  | [] => c

/-- What a line break becomes in the text that is read. -/
def breakChar (ch : Char) : Char := if ch == '\u2028' || ch == '\u2029' then ch else '\n'

/-- The characters of the line that satisfy `p`, and the place after them. -/
def takeWhile (c : Cursor) (p : Char → Bool) : List Char × Cursor :=
  let (taken, rest) := c.rest.span p
  (taken, ⟨rest, c.index + taken.length, c.line, c.column + taken.length⟩)

def skipWhile (c : Cursor) (p : Char → Bool) : Cursor := (c.takeWhile p).2

/-- Whether a line starts here with three times the same character and then a gap. -/
def atMarker (c : Cursor) (ch : Char) : Bool :=
  c.column == 0 && c.rest.take 3 == [ch, ch, ch] && c.gapAfter 3

/-- Whether a line starts here that begins or ends a document. -/
def atDocumentMarker (c : Cursor) : Bool := c.atMarker '-' || c.atMarker '.'

end Cursor

end LunchRush.Yaml
