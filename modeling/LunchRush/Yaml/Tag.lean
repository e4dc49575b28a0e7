import LunchRush.Yaml.Quoted
import LunchRush.Yaml.Token
/-!
# Tags and directives

A tag names the type of a value by a URI, mostly through a shorthand. Directives stand before a
document: the version of YAML, and further shorthands.
-/

namespace LunchRush.Yaml

/-- The characters of a URI; in a tag without angle brackets the comma and brackets are left
out. -/
def isUriChar (full : Bool) (c : Char) : Bool :=
  isNameChar c || ";/?:@&=+$.!~*'()%".toList.contains c ||
    (full && (c == ',' || c == '[' || c == ']'))

/-- How many bytes a character takes whose first byte is `b`, if it can be a first byte. -/
def utf8Length? (b : Nat) : Option Nat :=
  if b < 0x80 then some 1
  else if 0xc0 ≤ b && b < 0xe0 then some 2
  else if 0xe0 ≤ b && b < 0xf0 then some 3
  else if 0xf0 ≤ b && b < 0xf8 then some 4
  else none

/-- A byte written with a percent sign. -/
def escapedByte? (cs : List Char) : Option Nat :=
  match cs with
  | '%' :: a :: b :: _ => hexValue? [a, b]
  | _ => none

/-- `n` bytes written with percent signs, each a further byte of a character. -/
def furtherBytes? : (n : Nat) → List Char → Option (List UInt8)
  | 0, _ => some []
  | n + 1, cs => do
    let b ← escapedByte? cs
    if 0x80 ≤ b && b < 0xc0 then
      return UInt8.ofNat b :: (← furtherBytes? n (cs.drop 3))
    else none

/-- A character written with percent signs, and how many bytes it takes. -/
def escapedChar? (cs : List Char) : Option (List Char × Nat) := do
  let b ← escapedByte? cs
  let length ← utf8Length? b
  let more ← furtherBytes? (length - 1) (cs.drop 3)
  let s ← String.fromUTF8? ⟨(UInt8.ofNat b :: more).toArray⟩
  some (s.toList, length)

/-- The characters of a URI with its escapes read. -/
def uriChars? (full : Bool) : (fuel : Nat) → Cursor → Option (List Char × Cursor)
  | 0, c => some ([], c)
  | fuel + 1, c =>
    match c.peek with
    | some '%' =>
      match escapedChar? c.rest with
      | none => none
      | some (chars, length) =>
        (uriChars? full fuel (c.skip (3 * length))).map fun (more, c) => (chars ++ more, c)
    | some ch =>
      if isUriChar full ch then
        (uriChars? full fuel (c.skip 1)).map fun (more, c) => (ch :: more, c)
      else some ([], c)
    | none => some ([], c)

/-- A URI that goes on after `head`, of which the first character is left out; one of the two must
hold something. -/
def uri? (full : Bool) (head : List Char) (c : Cursor) : Option (List Char × Cursor) := do
  let (chars, rest) ← uriChars? full (c.rest.length + 1) c
  if head.isEmpty && chars.isEmpty then none else some (head.drop 1 ++ chars, rest)

/-- A shorthand: `!`, `!!` or `!name!`, or else the beginning of a tag that starts with `!`. -/
def tagHandle? (c : Cursor) : Option (List Char × Cursor) :=
  if c.peek == some '!' then
    let (name, c) := (c.skip 1).takeWhile isNameChar
    if c.peek == some '!' then some ('!' :: name ++ ['!'], c.skip 1) else some ('!' :: name, c)
  else none

/-- Whether a shorthand has two exclamation marks. -/
def isClosedHandle (handle : List Char) : Bool :=
  2 ≤ handle.length && handle.getLast? == some '!'

/-- A tag as its shorthand and the rest. -/
def tag? (flow : Bool) (c : Cursor) : Option (Token × Cursor) := do
  let (handle, suffix, c) ←
    if c.peek2 == some '<' then do
      let (suffix, c) ← uri? true [] (c.skip 2)
      if c.peek == some '>' then some ([], suffix, c.skip 1) else none
    else do
      let (handle, c) ← tagHandle? c
      if isClosedHandle handle then
        let (suffix, c) ← uri? false [] c
        some (handle, suffix, c)
      else
        let (suffix, c) ← uri? false handle c
        if suffix.isEmpty then some ([], ['!'], c) else some (['!'], suffix, c)
  if c.atGap || (flow && c.peek == some ',') then
    some (.tag (String.ofList handle) (String.ofList suffix), c)
  else none

/-- A number of a version, of one to nine digits. -/
def versionNumber? (c : Cursor) : Option (Nat × Cursor) :=
  let (digits, c) := c.takeWhile Char.isDigit
  if digits.isEmpty || 9 < digits.length then none
  else some (digits.foldl (fun n d => 10 * n + (d.toNat - '0'.toNat)) 0, c)

/-- The rest of a directive after its name. -/
def directiveBody? (name : String) (c : Cursor) : Option (Token × Cursor) :=
  if name = "YAML" then do
    let (major, c) ← versionNumber? (c.skipWhile isBlank)
    if c.peek == some '.' then
      let (minor, c) ← versionNumber? (c.skip 1)
      some (.version major minor, c)
    else none
  else if name = "TAG" then do
    let (handle, c) ← tagHandle? (c.skipWhile isBlank)
    if !(handle == ['!'] || isClosedHandle handle) then none
    else if !c.peek.any isBlank then none
    else
      let (expansion, c) ← uri? true [] (c.skipWhile isBlank)
      if c.atGap then some (.tagShorthand (String.ofList handle) (String.ofList expansion), c) else none
  else none

end LunchRush.Yaml
