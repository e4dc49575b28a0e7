import LunchRush.Url.Domain
import LunchRush.Url.Forbidden
import LunchRush.Url.Punycode
/-!
# Names in other letters

International names as the program reads them, without the tables of UTS 46: of the letters above ASCII only
wide ones and those of Latin, Greek and Cyrillic are folded, and nothing is composed. What is proved about
hosts does not rest on this, but holds for all `Names`.
-/

namespace LunchRush.Url

/-- Characters that only join or part the letters around them. -/
def isJoiner (c : Char) : Bool := c.toNat == 0x200c || c.toNat == 0x200d

/-- Characters that leave no trace in a domain. -/
def isIgnored (c : Char) : Bool :=
  let n := c.toNat
  n == 0xad || n == 0x34f || n == 0x200b || (0x2060 ≤ n && n ≤ 0x2064) || (0xfe00 ≤ n && n ≤ 0xfe0f) ||
    n == 0xfeff

/-- Whether no domain may hold a character. -/
def isExcluded (c : Char) : Bool := if c.toNat < 0x80 then isForbidden c else isOutside c

/-- What a character becomes in a domain. -/
def foldedChar (c : Char) : List Char :=
  let n := c.toNat
  if isIgnored c then []
  else if isExcluded c then [' ']
  else if n == 0x3002 || n == 0xff0e || n == 0xff61 then ['.']
  else if 0xff01 ≤ n && n ≤ 0xff5e then [(Char.ofNat (n - 0xfee0)).toLower]
  else if (0xc0 ≤ n && n ≤ 0xde && n != 0xd7) || (0x391 ≤ n && n ≤ 0x3a9) || (0x410 ≤ n && n ≤ 0x42f) then
    [Char.ofNat (n + 0x20)]
  else [c.toLower]

/-- A label in ASCII. One that already is in Punycode must stand for another label. -/
def labelText? (label : List Char) : Option (List Char) :=
  let isPlain := label.all fun c => c.toNat < 0x80
  match label with
  | 'x' :: 'n' :: '-' :: '-' :: written =>
    if !isPlain then none
    else
      match Punycode.decode? written with
      | some decoded =>
        if decoded.all (fun c => c.toNat < 0x80) || decoded.any isExcluded ||
            Punycode.encode decoded != written then none
        else some label
      | none => none
  | label => some (if isPlain then label else "xn--".toList ++ Punycode.encode label)

/-- The form in ASCII of a name whose letters are folded. -/
def foldedName? (name : List Char) : Option (List Char) :=
  let folded := name.flatMap foldedChar
  if folded.any fun c => isExcluded c || isJoiner c then none
  else ((splitOn '.' folded).mapM labelText?).map ['.'].intercalate

theorem isExcluded_of_blank {c : Char} (h : c.toNat ≤ 0x20) : isExcluded c = true := by
  have hascii : c.toNat < 0x80 := by omega
  have hforbidden : isForbidden c = true := by
    unfold isForbidden
    rw [decide_eq_true h, Bool.true_or, Bool.true_or]
  exact (if_pos hascii).trans hforbidden

theorem foldedName?_of_blank (name : List Char) (c : Char) (hc : c ∈ name) (hb : c.toNat ≤ 0x20) :
    foldedName? name = none := by
  have hignored : isIgnored c = false := by
    unfold isIgnored
    grind
  have hfolded : foldedChar c = [' '] := by
    unfold foldedChar
    rw [hignored, isExcluded_of_blank hb]
    rfl
  have hblank : ' ' ∈ name.flatMap foldedChar := List.mem_flatMap.2 ⟨c, hc, by rw [hfolded]; simp⟩
  refine if_pos (List.any_eq_true.2 ⟨' ', hblank, ?_⟩)
  rw [isExcluded_of_blank (by decide), Bool.true_or]

/-- Names in other letters, as far as they are folded here. -/
@[reducible] def Names.folded : Names := ⟨foldedName?, foldedName?_of_blank⟩

end LunchRush.Url
