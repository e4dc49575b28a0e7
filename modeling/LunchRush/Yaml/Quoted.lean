import LunchRush.Yaml.Gap
/-!
# Quoted scalars

Between single quotes a quote is written twice and nothing else is special. Between double quotes a
backslash starts an escape.
-/

namespace LunchRush.Yaml

/-- What a one-letter escape stands for. -/
def escapeChar? : Char → Option Char
  | '0' => some '\x00'
  | 'a' => some '\x07'
  | 'b' => some '\x08'
  | 't' => some '\t'
  | '\t' => some '\t'
  | 'n' => some '\n'
  | 'v' => some '\x0b'
  | 'f' => some '\x0c'
  | 'r' => some '\r'
  | 'e' => some '\x1b'
  | ' ' => some ' '
  | '"' => some '"'
  | '/' => some '/'
  | '\\' => some '\\'
  | 'N' => some '\u0085'
  | '_' => some '\u00a0'
  | 'L' => some '\u2028'
  | 'P' => some '\u2029'
  | _ => none

/-- How many digits follow the letter of an escape by number. -/
def escapeWidth? : Char → Option Nat
  | 'x' => some 2
  | 'u' => some 4
  | 'U' => some 8
  | _ => none

def hexDigit? (c : Char) : Option Nat :=
  if c.isDigit then some (c.toNat - '0'.toNat)
  else if 'a' ≤ c ∧ c ≤ 'f' then some (c.toNat - 'a'.toNat + 10)
  else if 'A' ≤ c ∧ c ≤ 'F' then some (c.toNat - 'A'.toNat + 10)
  else none

def hexValue? (cs : List Char) : Option Nat :=
  cs.foldl (fun n c => return 16 * (← n) + (← hexDigit? c)) (some 0)

/-- The character with a number. -/
def codePoint? (n : Nat) : Option Char :=
  if (0xd800 ≤ n && n ≤ 0xdfff) || 0x10ffff < n then none else some (Char.ofNat n)

/-- The character of an escape after its backslash, and the place after it. -/
def escape? (c : Cursor) : Option (Char × Cursor) := do
  let letter ← c.peek
  match escapeWidth? letter with
  | some width =>
    let digits := (c.rest.drop 1).take width
    if digits.length = width then
      let ch ← codePoint? (← hexValue? digits)
      some (ch, c.skip (1 + width))
    else none
  | none => some (← escapeChar? letter, c.skip 1)

/-- The characters of a quoted scalar up to a gap, the closing quote or an escaped line break;
`true` says that there was such a break. -/
def quotedWord? (single : Bool) : (fuel : Nat) → Cursor → Option (List Char × Bool × Cursor)
  | 0, c => some ([], false, c)
  | fuel + 1, c =>
    match c.rest with
    | [] => some ([], false, c)
    | ch :: rest =>
      if isBlank ch || isBreak ch then some ([], false, c)
      else if single && ch == '\'' then
        if rest.head? == some '\'' then
          (quotedWord? single fuel (c.skip 2)).map fun (word, e, c) => ('\'' :: word, e, c)
        else some ([], false, c)
      else if !single && ch == '"' then some ([], false, c)
      else if !single && ch == '\\' then
        if rest.head?.any isBreak then some ([], true, (c.skip 1).skipBreak)
        else
          match escape? (c.skip 1) with
          | none => none
          | some (e, c) => (quotedWord? single fuel c).map fun (word, b, c) => (e :: word, b, c)
      else (quotedWord? single fuel (c.skip 1)).map fun (word, e, c) => (ch :: word, e, c)

/-- The rest of a quoted scalar, and the place after its closing quote. -/
def quotedFrom? (single : Bool) : (fuel : Nat) → Cursor → Option (List Char × Cursor)
  | 0, _ => none
  | fuel + 1, c =>
    if c.atDocumentMarker || c.isEnd then none
    else
      match quotedWord? single (c.rest.length + 1) c with
      | none => none
      | some (word, escaped, c) =>
        if !escaped && c.peek == some (if single then '\'' else '"') then some (word, c.skip 1)
        else
          match Gap.read? 0 (c.rest.length + 1) (if escaped then Gap.escaped else Gap.none) c with
          | none => none
          | some (gap, c) => (quotedFrom? single fuel c).map fun (text, c) => (word ++ gap.text ++ text, c)

/-- A quoted scalar from its opening quote on. -/
def quoted? (single : Bool) (c : Cursor) : Option (List Char × Cursor) :=
  quotedFrom? single (c.rest.length + 1) (c.skip 1)

end LunchRush.Yaml
