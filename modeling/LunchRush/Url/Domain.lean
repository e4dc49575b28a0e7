import LunchRush.Url.Address
import LunchRush.Url.Names
/-!
# Domains

The name of a host in ASCII: its bytes are decoded and its letters become small. Characters that separate
the parts of a URL stand in no name.
-/

namespace LunchRush.Url

/-- The characters of ASCII that no domain holds. -/
def isForbidden (c : Char) : Bool :=
  c.toNat ≤ 0x20 || c.toNat == 0x7f || "%#/:<>?@[\\]^|".toList.contains c

/-- Whether a label stands for one with other characters. -/
def isEncoded (label : List Char) : Bool := label.take 4 == "xn--".toList

/-- The domain that a name of ASCII stands for. -/
def plainDomain? (name : List Char) : Option (List Char) := if name.any isForbidden then none else some name

/-- The domain that a host names, unless some character may not stand in one. -/
def domain? [Names] (host : List Char) : Option (List Char) := do
  let decoded ← String.fromUTF8? ⟨(percentDecode host).toArray⟩
  let name := decoded.toList.map Char.toLower
  if name.all (·.toNat < 0x80) && !(splitOn '.' name).any isEncoded then plainDomain? name
  else Names.ascii? decoded.toList

end LunchRush.Url
