import LunchRush.Text.Quoted
import LunchRush.Yaml.Cursor
import LunchRush.Yaml.Schema
import LunchRush.Yaml.Token
/-!
# Writing scalars

A text is written plain where nothing would be read differently, between single quotes where an
indicator or a space would be, and between double quotes where a character has to be escaped. A
text of several lines is a literal block unless a space would get lost in it.
-/

namespace LunchRush.Yaml

/-- The characters that are written as they are: tabs, byte order marks and most line breaks are
not among them. -/
def isShown (c : Char) : Bool :=
  isAllowed c && c != '\t' && c != '\r' && c != '\u0085' && c != '\ufeff'

/-- White space, or no more text. -/
def isGapOrEnd (c : Option Char) : Bool := c.all fun ch => isBlank ch || isBreak ch || ch == '\x00'

/-- The indicators with which no plain scalar starts. -/
def isLeadingIndicator (c : Char) : Bool :=
  "#,[]&*!|>'\"%@".toList.contains c || c == '\x7b' || c == '\x7d' || c == '\x60'

/-- Whether a character is an indicator at the start of a text. -/
def isIndicatorFirst (c : Char) (next : Option Char) : Bool :=
  isLeadingIndicator c || ((c == '?' || c == ':' || c == '-') && isGapOrEnd next)

/-- Whether a character is an indicator between its neighbours. -/
def isIndicatorInside (previous c : Char) (next : Option Char) : Bool :=
  (c == ':' && isGapOrEnd next) || (c == '#' && isGapOrEnd (some previous))

/-- Whether some character after the first is an indicator. -/
def hasIndicatorInside : Char → List Char → Bool
  | _, [] => false
  | previous, c :: rest => isIndicatorInside previous c rest.head? || hasIndicatorInside c rest

/-- Whether a text holds an indicator that ends a plain scalar or starts something else. -/
def hasIndicator : List Char → Bool
  | [] => false
  | c :: rest =>
    let cs := c :: rest
    "---".toList.isPrefixOf cs || "...".toList.isPrefixOf cs || isIndicatorFirst c rest.head? ||
      hasIndicatorInside c rest

/-- Whether two characters in a row satisfy `p`. -/
def hasPair (p : Char → Char → Bool) : List Char → Bool
  | a :: b :: rest => p a b || hasPair p (b :: rest)
  | _ => false

/-- A space right before a line break is lost in a block and between single quotes. -/
def hasSpaceBeforeBreak (cs : List Char) : Bool := hasPair (fun a b => a == ' ' && isBreak b) cs

/-- A space right after a line break is lost between single quotes. -/
def hasSpaceAfterBreak (cs : List Char) : Bool := hasPair (fun a b => isBreak a && b == ' ') cs

/-- Whether only double quotes keep the text. -/
def needsEscapes (cs : List Char) : Bool := hasSpaceBeforeBreak cs || !cs.all isShown

/-- Whether the text can be a literal block. -/
def fitsLiteral (cs : List Char) : Bool := !needsEscapes cs && cs.getLast? != some ' '

/-- Whether the text can stand between single quotes. -/
def fitsSingleQuotes (cs : List Char) : Bool := !needsEscapes cs && !hasSpaceAfterBreak cs

/-- Whether the text can be plain. -/
def fitsPlain (cs : List Char) : Bool :=
  !needsEscapes cs && !hasIndicator cs && !cs.any isBreak && cs.head? != some ' ' &&
    cs.getLast? != some ' '

/-- How a text is written. -/
def styleOf (s : String) : Style :=
  let cs := s.toList
  if cs.contains '\n' then if fitsLiteral cs then .literal else .doubleQuoted
  else if fitsPlain cs && !needsQuotes s then .plain
  else if fitsSingleQuotes cs then .singleQuoted
  else .doubleQuoted

/-- The letter of the escape of a character that has one. -/
def escapeLetter? : Char → Option Char
  | '\x00' => some '0'
  | '\x07' => some 'a'
  | '\x08' => some 'b'
  | '\t' => some 't'
  | '\n' => some 'n'
  | '\x0b' => some 'v'
  | '\x0c' => some 'f'
  | '\r' => some 'r'
  | '\x1b' => some 'e'
  | '"' => some '"'
  | '\\' => some '\\'
  | '\u0085' => some 'N'
  | '\u2028' => some 'L'
  | '\u2029' => some 'P'
  | _ => none

/-- A number in base 16 with at least `width` digits. -/
def hexField (width n : Nat) : List Char :=
  let digits := (Text.hexDigits n).map Char.toUpper
  List.replicate (width - digits.length) '0' ++ digits

/-- A character between double quotes. -/
def escapedChar (c : Char) : List Char :=
  match escapeLetter? c with
  | some letter => ['\\', letter]
  | none =>
    if isShown c then [c]
    else if c.toNat < 0x100 then '\\' :: 'x' :: hexField 2 c.toNat
    else if c.toNat < 0x10000 then '\\' :: 'u' :: hexField 4 c.toNat
    else '\\' :: 'U' :: hexField 8 c.toNat

/-- The rest of a text between single quotes: a quote is written twice, and the indentation comes
after a line break. -/
def singleQuotedChars (indent : Nat) : (broken : Bool) → List Char → List Char
  | broken, [] => if broken then List.replicate indent ' ' else []
  | broken, c :: rest =>
    if isBreak c then c :: singleQuotedChars indent true rest
    else
      (if broken then List.replicate indent ' ' else []) ++ (if c == '\'' then ['\'', '\''] else [c]) ++
        singleQuotedChars indent false rest

/-- The lines of a literal block: every line that holds something is indented. -/
def literalChars (indent : Nat) : (broken : Bool) → List Char → List Char
  | _, [] => []
  | broken, c :: rest =>
    if isBreak c then c :: literalChars indent true rest
    else (if broken then List.replicate indent ' ' else []) ++ c :: literalChars indent false rest

/-- What is done with the line breaks at the end of a literal block: `-` drops the one that ends the
last line, `+` keeps several. -/
def chomping (cs : List Char) : List Char :=
  match cs.reverse with
  | last :: before =>
    if !isBreak last then ['-'] else if before.head?.all isBreak then ['+'] else []
  | [] => ['-']

/-- The first line of a literal block. The indentation must be said if the text starts with a space
or a line break. -/
def literalHeader (cs : List Char) : List Char :=
  '|' :: (if cs.head?.any (fun c => c == ' ' || isBreak c) then ['2'] else []) ++ chomping cs

/-- A text where a scalar is expected whose further lines are indented by `indent`. -/
def scalarChars (indent : Nat) (s : String) : List Char :=
  let cs := s.toList
  match styleOf s with
  | .plain => cs
  | .singleQuoted => '\'' :: singleQuotedChars indent false cs ++ ['\'']
  | .literal => literalHeader cs ++ '\n' :: literalChars indent true cs
  | _ => '"' :: cs.flatMap escapedChar ++ ['"']

end LunchRush.Yaml
