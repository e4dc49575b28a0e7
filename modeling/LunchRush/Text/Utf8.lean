/-!
# Bytes that are read as text

Bytes are read as UTF-8. Where they are none, the longest beginning of a character is replaced by one
character that says so, and what comes after it is read on.
-/

namespace LunchRush.Text

/-- A character of which some bytes are read. -/
structure Begun where
  /-- How many bytes are to come. -/
  lacks : Nat
  /-- The bounds of the next one. -/
  least : Nat
  greatest : Nat
  /-- The bits that the bytes have brought so far. -/
  bits : Nat

/-- What stands for bytes that are no text. -/
def replacement : Char := '\uFFFD'

/-- The character that a byte begins. The bounds leave out characters that have a shorter form, the
surrogates, and what lies above all characters. -/
def begun? (byte : Nat) : Option Begun :=
  if byte < 0xc2 then none
  else if byte < 0xe0 then some ⟨1, 0x80, 0xbf, byte - 0xc0⟩
  else if byte = 0xe0 then some ⟨2, 0xa0, 0xbf, 0⟩
  else if byte = 0xed then some ⟨2, 0x80, 0x9f, 0xd⟩
  else if byte < 0xf0 then some ⟨2, 0x80, 0xbf, byte - 0xe0⟩
  else if byte = 0xf0 then some ⟨3, 0x90, 0xbf, 0⟩
  else if byte < 0xf4 then some ⟨3, 0x80, 0xbf, byte - 0xf0⟩
  else if byte = 0xf4 then some ⟨3, 0x80, 0x8f, 4⟩
  else none

/-- What a byte brings between characters. -/
def readFirst (byte : Nat) : List Char × Option Begun :=
  if byte < 0x80 then ([Char.ofNat byte], none)
  else
    match begun? byte with
    | some begun => ([], some begun)
    | none => ([replacement], none)

/-- What a byte brings. -/
def readByte (byte : Nat) : Option Begun → List Char × Option Begun
  | none => readFirst byte
  | some begun =>
    if byte < begun.least || begun.greatest < byte then
      let (cs, next) := readFirst byte
      (replacement :: cs, next)
    else
      let bits := begun.bits * 64 + (byte - 0x80)
      if begun.lacks ≤ 1 then ([Char.ofNat bits], none)
      else ([], some ⟨begun.lacks - 1, 0x80, 0xbf, bits⟩)

/-- The characters of some bytes, of which the first one may go on with a character. -/
def readBytes : Option Begun → List UInt8 → List Char
  | none, [] => []
  | some _, [] => [replacement]
  | begun, byte :: rest =>
    let (cs, next) := readByte byte.toNat begun
    cs ++ readBytes next rest

/-- The text of some bytes. -/
def ofBytes (bytes : List UInt8) : String := String.ofList (readBytes none bytes)

end LunchRush.Text
