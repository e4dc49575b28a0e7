import LunchRush.Generate.Words
import LunchRush.Random.Real
import LunchRush.Registration
/-!
# Restaurants

A registration that the gateway accepts, drawn in a fixed order: name, address, secret key, place,
and the entries of the menu. The constructors check what was drawn, and a value that broke a rule
would be a fault.
-/

namespace LunchRush.Generate

open LunchRush.Random

variable {σ : Type} [Source σ]

/-- A drawn value that must keep the rules. -/
def kept {α : Type} : Except Violation α → Draw σ α
  | .ok a => return a
  | .error reason => throw (.invalidDraw reason)

/-- Two digits in base 16. -/
def byteChars (n : Nat) : List Char :=
  (if n < 16 then ['0'] else []) ++ Text.hexDigits n

/-- The text of a random UUID: the four bits of the version and the two of the variant are set,
whatever the bytes say. -/
def uuidText (bytes : List Nat) : String :=
  let digits := bytes.zipIdx.flatMap fun (b, i) =>
    byteChars (if i = 6 then b % 16 + 64 else if i = 8 then b % 64 + 128 else b)
  let part (start count : Nat) : List Char := (digits.drop start).take count
  String.ofList (part 0 8 ++ '-' :: part 8 4 ++ '-' :: part 12 4 ++ '-' :: part 16 4 ++ '-' ::
    part 20 12)

/-- A secret key: the low bytes of sixteen words. -/
def secretKey : Draw σ String := do
  let words ← times 16 word32
  return uuidText (words.map (· % 256))

/-- An entry of a menu. -/
def menuTemplate : Draw σ MenuTemplate := do
  let word ← pick filler
  let description ← sentence
  let price ← uniform Bounds.priceMin Bounds.priceMax
  kept (MenuTemplate.new (capitalized word ++ " Special") description
    (Number.roundTo price Bounds.priceDecimals))

/-- A registration. -/
def registration : Draw σ Registration := do
  let company ← company
  let email ← address
  let key ← secretKey
  let latitude ← uniform Bounds.latitudeMin Bounds.latitudeMax
  let longitude ← uniform Bounds.longitudeMin Bounds.longitudeMax
  let count ← between64 Bounds.menuMin Bounds.menuMax
  let menus ← times count menuTemplate
  kept (Registration.new (company ++ " Kitchen") email key
    (Number.roundTo latitude Bounds.coordinateDecimals)
    (Number.roundTo longitude Bounds.coordinateDecimals) menus)

end LunchRush.Generate
