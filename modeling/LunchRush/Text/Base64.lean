/-!
# Bytes in base 64

Three bytes are written as four digits in base 64. Equal signs fill up the last four.
-/

namespace LunchRush.Text

/-- The digits in base 64. -/
def base64Digits : List Char := "ABCDEFGHIJKLMNOPQRSTUVWXYZabcdefghijklmnopqrstuvwxyz0123456789+/".toList

/-- A digit in base 64. -/
def base64Digit (n : Nat) : Char := base64Digits.getD (n % 64) 'A'

/-- The first digits of three bytes. -/
def base64Group (count : Nat) (a b c : UInt8) : List Char :=
  let bits := (a.toNat * 256 + b.toNat) * 256 + c.toNat
  [base64Digit (bits / 262144), base64Digit (bits / 4096), base64Digit (bits / 64), base64Digit bits].take count

/-- Bytes in base 64. -/
def base64 : List UInt8 → List Char
  | [] => []
  | [a] => base64Group 2 a 0 0 ++ ['=', '=']
  | [a, b] => base64Group 3 a b 0 ++ ['=']
  | a :: b :: c :: rest => base64Group 4 a b c ++ base64 rest

end LunchRush.Text
