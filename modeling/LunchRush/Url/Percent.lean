/-!
# Percent encoding

The bytes of a character that may not stand in some part of a URL are written with percent signs.
Which characters these are depends on the part; characters above ASCII are always among them.
-/

namespace LunchRush.Url

/-- A byte with a percent sign and two digits in base 16. -/
def percentByte (b : UInt8) : List Char :=
  let digit (n : Nat) : Char := if n < 10 then Char.ofNat (48 + n) else Char.ofNat (55 + n)
  ['%', digit (b.toNat / 16), digit (b.toNat % 16)]

/-- A character with every byte encoded. -/
def percentChar (c : Char) : List Char := (String.singleton c).toUTF8.toList.flatMap percentByte

/-- A text in which the characters that `special` picks are encoded, and those that are never
written as they are. -/
def percentEncode (special : Char → Bool) (cs : List Char) : List Char :=
  cs.flatMap fun c =>
    if c.toNat < 0x20 || 0x7f ≤ c.toNat || special c then percentChar c else [c]

/-- The characters that are encoded in a fragment. -/
def inFragment (c : Char) : Bool := " \"<>".toList.contains c || c == '\x60'

/-- The characters that are encoded in a path. -/
def inPath (c : Char) : Bool := inFragment c || "#?".toList.contains c || c == '\x7b' || c == '\x7d'

/-- The characters that are encoded in a name or a password. -/
def inUserinfo (c : Char) : Bool := inPath c || "/:;=@[\\]^|".toList.contains c

/-- The characters that are encoded in a query. -/
def inQuery (special : Bool) (c : Char) : Bool :=
  " \"#<>".toList.contains c || (special && c == '\'')

/-- The value of a digit in base 16. -/
def hexDigit? (c : Char) : Option Nat :=
  if c.isDigit then some (c.toNat - '0'.toNat)
  else if 'a' ≤ c ∧ c ≤ 'f' then some (c.toNat - 'a'.toNat + 10)
  else if 'A' ≤ c ∧ c ≤ 'F' then some (c.toNat - 'A'.toNat + 10)
  else none

/-- The bytes of a text whose percent signs are read; one without two digits stands for itself. -/
def percentDecode : List Char → List UInt8
  | [] => []
  | '%' :: a :: b :: rest =>
    match hexDigit? a, hexDigit? b with
    | some high, some low => UInt8.ofNat (16 * high + low) :: percentDecode rest
    | _, _ => 0x25 :: percentDecode (a :: b :: rest)
  | c :: rest => (String.singleton c).toUTF8.toList ++ percentDecode rest

end LunchRush.Url
