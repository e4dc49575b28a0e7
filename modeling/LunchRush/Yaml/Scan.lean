import LunchRush.Yaml.Block
import LunchRush.Yaml.Plain
import LunchRush.Yaml.Tag
/-!
# From text to tokens

`tokens?` reads a text word by word. What makes it more than a list of patterns is that blocks end
where the indentation goes back, and that a key on one line shows only by the colon after it. Where
a key may start, a slot is left among the tokens; the colon fills it.
-/

namespace LunchRush.Yaml

/-- A token, or a place where a key may turn out to start. -/
inductive Entry where
  | token (t : Token)
  | slot (number : Nat)
deriving Repr

/-- A place where a key may have started. -/
structure PendingKey where
  slot : Nat
  /-- Whether nothing but a key can start there. -/
  required : Bool
  index : Nat
  line : Nat
  column : Nat
deriving Repr

/-- What the colon of a key puts into its slot. -/
structure Filled where
  slot : Nat
  /-- Whether a block of keys starts with this one. -/
  opensMap : Bool
deriving Repr

/-- How far a text has been read. -/
structure Scan where
  cursor : Cursor
  /-- The depth of brackets. -/
  flow : Nat
  /-- The columns of the blocks that are open, the innermost first. -/
  indents : List Nat
  /-- Whether a key or a list entry may start at this place. -/
  keyAllowed : Bool
  /-- For each depth of brackets, the innermost first, where a key may have started. -/
  pending : List (Option PendingKey)
  slots : Nat
  filled : List Filled
  /-- The tokens, the last one first. -/
  entries : List Entry
deriving Repr

namespace Scan

def start (s : String) : Scan := ⟨Cursor.ofString s, 0, [], true, [none], 0, [], []⟩

def push (s : Scan) (t : Token) : Scan := { s with entries := .token t :: s.entries }

/-- Pushes a token of `n` characters. -/
def pushChars (s : Scan) (t : Token) (n : Nat) : Scan :=
  { s.push t with cursor := s.cursor.skip n }

def inFlow (s : Scan) : Bool := 0 < s.flow

/-- Skips white space, comments and line breaks. A tab is no white space where a key may start. -/
def skipGaps : (fuel : Nat) → Scan → Scan
  | 0, s => s
  | fuel + 1, s =>
    let c := if s.cursor.index == 0 && s.cursor.peek == some '\ufeff' then s.cursor.skip 1 else s.cursor
    let tabs := s.inFlow || !s.keyAllowed
    let c := c.skipWhile fun ch => ch == ' ' || (tabs && ch == '\t')
    let c := if c.peek == some '#' then c.skipWhile (fun ch => !isBreak ch) else c
    if c.peek.any isBreak then
      skipGaps fuel { s with cursor := c.skipBreak, keyAllowed := s.keyAllowed || !s.inFlow }
    else { s with cursor := c }

/-- Ends the blocks that are indented deeper than `column`. -/
def endBlocks (s : Scan) (column : Nat) : Scan :=
  if s.inFlow then s
  else
    let ended := s.indents.takeWhile (column < ·)
    { s with
      indents := s.indents.dropWhile (column < ·)
      entries := ended.map (fun _ => .token .blockEnd) ++ s.entries }

/-- Ends all blocks. -/
def endAllBlocks (s : Scan) : Scan :=
  if s.inFlow then s
  else { s with indents := [], entries := s.indents.map (fun _ => .token .blockEnd) ++ s.entries }

/-- Whether a block at `column` would be a new one. -/
def isDeeper (s : Scan) (column : Nat) : Bool := !s.inFlow && s.indents.head?.all (· < column)

/-- Starts a block with token `t` at the column of the cursor, unless it is open already. -/
def openBlock (s : Scan) (t : Token) : Scan :=
  if s.isDeeper s.cursor.column then
    { s.push t with indents := s.cursor.column :: s.indents }
  else s

/-- A key must end on its line, within 1024 characters. -/
def isStale (k : PendingKey) (c : Cursor) : Bool :=
  k.line < c.line || k.index + 1024 < c.index

/-- Gives up the keys that have become too long. It is an error if there had to be a key. -/
def dropStale? (s : Scan) : Option Scan :=
  let stale (k : PendingKey) : Bool := isStale k s.cursor
  if s.pending.any fun k => k.any fun k => stale k && k.required then none
  else some { s with pending := s.pending.map fun k => k.filter fun k => !stale k }

/-- Gives up the key of this depth of brackets. -/
def dropKey? (s : Scan) : Option Scan :=
  match s.pending with
  | some k :: outer => if k.required then none else some { s with pending := none :: outer }
  | _ => some s

/-- Leaves a slot if a key may start here. -/
def markKey? (s : Scan) : Option Scan :=
  if s.keyAllowed then do
    let s ← s.dropKey?
    let required := !s.inFlow && s.indents.head? == some s.cursor.column
    let k : PendingKey := ⟨s.slots, required, s.cursor.index, s.cursor.line, s.cursor.column⟩
    some { s with
      pending := some k :: s.pending.drop 1
      slots := s.slots + 1
      entries := .slot s.slots :: s.entries }
  else some s

/-- Fills the slot of a key. -/
def fillKey (s : Scan) (k : PendingKey) : Scan :=
  let opens := s.isDeeper k.column
  { s with
    filled := ⟨k.slot, opens⟩ :: s.filled
    indents := if opens then k.column :: s.indents else s.indents
    pending := none :: s.pending.drop 1
    keyAllowed := false }

/-- A token at which all blocks end. -/
def boundary? (s : Scan) : Option Scan := do
  let s ← s.endAllBlocks.dropKey?
  some { s with keyAllowed := false }

def directive? (s : Scan) : Option Scan := do
  let s ← s.boundary?
  let (name, c) := (s.cursor.skip 1).takeWhile isNameChar
  if name.isEmpty || !c.atGap then none
  else
    let (token, c) ← directiveBody? (String.ofList name) c
    let c ← endOfLine? c
    some { s.push token with cursor := c }

def marker? (s : Scan) (t : Token) : Option Scan := do
  let s ← s.boundary?
  some (s.pushChars t 3)

def openBracket? (s : Scan) (t : Token) : Option Scan := do
  let s ← s.markKey?
  some { s.pushChars t 1 with flow := s.flow + 1, pending := none :: s.pending, keyAllowed := true }

def closeBracket? (s : Scan) (t : Token) : Option Scan := do
  let s ← s.dropKey?
  let s := if s.inFlow then { s with flow := s.flow - 1, pending := s.pending.drop 1 } else s
  some { s.pushChars t 1 with keyAllowed := false }

def comma? (s : Scan) : Option Scan := do
  let s ← s.dropKey?
  some { s.pushChars .comma 1 with keyAllowed := true }

def dash? (s : Scan) : Option Scan := do
  if !s.inFlow && !s.keyAllowed then none
  else
    let s ← (s.openBlock .blockList).dropKey?
    some { s.pushChars .dash 1 with keyAllowed := true }

def explicitKey? (s : Scan) : Option Scan := do
  if !s.inFlow && !s.keyAllowed then none
  else
    let s ← (s.openBlock .blockMap).dropKey?
    some { s.pushChars .key 1 with keyAllowed := !s.inFlow }

def colon? (s : Scan) : Option Scan :=
  match s.pending with
  | some k :: _ => some ((s.fillKey k).pushChars .value 1)
  | _ =>
    if s.inFlow then some { s.pushChars .value 1 with keyAllowed := false }
    else if !s.keyAllowed then none
    else some { (s.openBlock .blockMap).pushChars .value 1 with keyAllowed := true }

/-- An anchor or an alias. -/
def name? (s : Scan) (t : String → Token) : Option Scan := do
  let s ← s.markKey?
  let (name, c) := (s.cursor.skip 1).takeWhile isNameChar
  let ends := c.atGap || c.peek.any fun ch => "?:,]%@".toList.contains ch || ch == '\x7d' || ch == '\x60'
  if name.isEmpty || !ends then none
  else some { s.push (t (String.ofList name)) with cursor := c, keyAllowed := false }

def tagged? (s : Scan) : Option Scan := do
  let s ← s.markKey?
  let (token, c) ← tag? s.inFlow s.cursor
  some { s.push token with cursor := c, keyAllowed := false }

def blockScalar? (s : Scan) (style : Style) : Option Scan := do
  let s ← s.dropKey?
  let (text, c) ← block? (style == .literal) s.indents.head? s.cursor
  some { s.push (.scalar style (String.ofList text)) with cursor := c, keyAllowed := true }

def quotedScalar? (s : Scan) (style : Style) : Option Scan := do
  let s ← s.markKey?
  let (text, c) ← quoted? (style == .singleQuoted) s.cursor
  some { s.push (.scalar style (String.ofList text)) with cursor := c, keyAllowed := false }

def plainScalar? (s : Scan) : Option Scan := do
  let s ← s.markKey?
  let (text, broken, c) ← plain? s.inFlow (s.indents.head?.elim 0 (· + 1)) s.cursor
  some { s.push (.scalar .plain (String.ofList text)) with cursor := c, keyAllowed := broken }

/-- The characters that cannot start a plain scalar, except before a character that is no gap. -/
def isIndicator (ch : Char) : Bool :=
  "-?:,[]#&*!|>'\"%@".toList.contains ch || ch == '\x7b' || ch == '\x7d' || ch == '\x60'

/-- Whether a plain scalar starts with `ch`. -/
def startsPlain (s : Scan) (ch : Char) : Bool :=
  (!isIndicator ch && !isBlank ch) || (ch == '-' && !s.cursor.peek2.any isBlank) ||
    (!s.inFlow && (ch == '?' || ch == ':') && !s.cursor.gapAfter 1)

/-- The token that starts with `ch`. -/
def word? (s : Scan) (ch : Char) : Option Scan :=
  let c := s.cursor
  if c.column == 0 && ch == '%' then s.directive?
  else if c.atMarker '-' then s.marker? .documentStart
  else if c.atMarker '.' then s.marker? .documentEnd
  else if ch == '[' then s.openBracket? .openList
  else if ch == '\x7b' then s.openBracket? .openMap
  else if ch == ']' then s.closeBracket? .closeList
  else if ch == '\x7d' then s.closeBracket? .closeMap
  else if ch == ',' then s.comma?
  else if ch == '-' && c.gapAfter 1 then s.dash?
  else if ch == '?' && (s.inFlow || c.gapAfter 1) then s.explicitKey?
  else if ch == ':' && (s.inFlow || c.gapAfter 1) then s.colon?
  else if ch == '*' then s.name? .alias
  else if ch == '&' then s.name? .anchor
  else if ch == '!' then s.tagged?
  else if ch == '|' && !s.inFlow then s.blockScalar? .literal
  else if ch == '>' && !s.inFlow then s.blockScalar? .folded
  else if ch == '\'' then s.quotedScalar? .singleQuoted
  else if ch == '"' then s.quotedScalar? .doubleQuoted
  else if s.startsPlain ch then s.plainScalar?
  else none

/-- Reads all tokens. Every word takes a character, so the fuel lasts. -/
def run? : (fuel : Nat) → Scan → Option Scan
  | 0, _ => none
  | fuel + 1, s =>
    match (skipGaps (s.cursor.rest.length + 1) s).dropStale? with
    | none => none
    | some s =>
      let s := s.endBlocks s.cursor.column
      match s.cursor.peek with
      | none => s.endAllBlocks.dropKey?
      | some ch =>
        match s.word? ch with
        | none => none
        | some s => run? fuel s

/-- The tokens of an entry, before those of the later entries. -/
def expand (filled : List Filled) (later : List Token) : Entry → List Token
  | .token t => t :: later
  | .slot n =>
    match filled.find? (·.slot == n) with
    | some f => if f.opensMap then .blockMap :: .key :: later else .key :: later
    | none => later

end Scan

/-- The tokens of a text. -/
def tokens? (s : String) : Option (List Token) :=
  if s.toList.all isAllowed then
    (Scan.run? (s.length + 2) (Scan.start s)).map fun scan =>
      scan.entries.foldl (Scan.expand scan.filled) []
  else none

end LunchRush.Yaml
