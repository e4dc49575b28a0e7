import LunchRush.Random.Whole
/-!
# Names and sentences

Texts that look like those of a restaurant, put together from short lists of words.
-/

namespace LunchRush.Generate

open LunchRush.Random

variable {σ : Type} [Source σ]

/-- Family names. -/
def surnames : List String :=
  ["Abebe", "Alemu", "Bekele", "Desta", "Girma", "Haile", "Kebede", "Mekonnen", "Tadesse",
   "Tesfaye", "Wolde", "Yohannes", "Anderson", "Garcia", "Johnson", "Martinez", "Nguyen",
   "Patel", "Robinson", "Schmidt", "Silva", "Thompson", "Walker", "Young"]

/-- Given names, as they stand in an address. -/
def givenNames : List String :=
  ["abel", "almaz", "dawit", "eden", "hana", "liya", "meron", "samuel", "selam", "yonas", "alex",
   "grace", "maria", "noah", "olivia", "ravi", "sofia", "tom"]

/-- What follows the name of a company. -/
def suffixes : List String :=
  ["Group", "PLC", "and Sons", "Inc", "LLC", "Ltd"]

/-- Where addresses lead. -/
def domains : List String :=
  ["example.com", "example.org", "example.net", "mail.test"]

/-- Words without meaning for names and descriptions of dishes. -/
def filler : List String :=
  ["alias", "amet", "aperiam", "beatae", "culpa", "dolor", "dolore", "eaque", "enim", "esse",
   "fugiat", "harum", "illum", "ipsum", "labore", "laborum", "magnam", "minima", "nemo", "nihil",
   "odio", "omnis", "quae", "quia", "ratione", "saepe", "sint", "tempora", "ullam", "veniam",
   "vero", "vitae", "voluptas"]

/-- The name of a company: with a suffix, of two families, or of three. -/
def company : Draw σ String := do
  let kind ← lessThan32 3
  let first ← pick surnames
  if kind = 0 then return first ++ " " ++ (← pick suffixes)
  else
    let second ← pick surnames
    if kind = 1 then return first ++ "-" ++ second
    else return first ++ ", " ++ second ++ " and " ++ (← pick surnames)

/-- A name in small letters. -/
def lowered (name : String) : String := String.ofList (name.toList.map Char.toLower)

/-- An address: given name, family name and a number below a thousand. -/
def address : Draw σ String := do
  let given ← pick givenNames
  let surname ← pick surnames
  let number ← lessThan16 1000
  let domain ← pick domains
  return given ++ "." ++ lowered surname ++ toString number ++ "@" ++ domain

/-- The text with its first letter as a capital. -/
def capitalized (text : String) : String :=
  match text.toList with
  | [] => ""
  | c :: cs => String.ofList (c.toUpper :: cs)

/-- Four to nine words, the first with a capital, and a period. -/
def sentence : Draw σ String := do
  let count ← between32 4 9
  let words ← times count (pick filler)
  return capitalized (" ".intercalate words) ++ "."

end LunchRush.Generate
