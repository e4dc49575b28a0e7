/-!
# Blank text

Identifiers and names must hold something besides white space. White space is the Unicode property
of that name, so the no-break and the ideographic space count, and the zero-width space does not.
-/

namespace LunchRush.Text

/-- The code points with the property White_Space. -/
def isSpace (c : Char) : Bool :=
  let n := c.toNat
  (0x09 ≤ n && n ≤ 0x0d) || n == 0x20 || n == 0x85 || n == 0xa0 || n == 0x1680 ||
    (0x2000 ≤ n && n ≤ 0x200a) || n == 0x2028 || n == 0x2029 || n == 0x202f || n == 0x205f ||
    n == 0x3000

/-- A text is blank when it is empty or holds white space alone. -/
def isBlank (s : String) : Bool := s.toList.all isSpace

@[simp] theorem isBlank_empty : isBlank "" = true := rfl

theorem isBlank_eq_true_iff (s : String) : isBlank s = true ↔ ∀ c ∈ s.toList, isSpace c = true := by
  simp [isBlank]

end LunchRush.Text
