/-!
# International names

A name of a host may hold characters from all over the world. What is asked for over the network is its
form in ASCII, to which letters are folded and composed by the tables of Unicode (UTS 46). These tables
are not part of this library.
-/

namespace LunchRush.Url

/-- The form in ASCII of names that hold other characters, or labels that stand for such names. -/
class Names where
  ascii? : List Char → Option (List Char)
  /-- No name holds a blank or a control character. -/
  blank : ∀ name c, c ∈ name → c.toNat ≤ 0x20 → ascii? name = none

/-- The names of ASCII and no others. -/
@[reducible] def Names.plain : Names := ⟨fun _ => none, fun _ _ _ _ => rfl⟩

end LunchRush.Url
