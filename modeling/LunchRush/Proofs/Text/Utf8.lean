import LunchRush.Proofs.Text.Bytes
import LunchRush.Text.Utf8
/-!
# Texts are read from their bytes

A character is read from its one to four bytes (`readBytes_char`), so the bytes of a text are read as that
text (`ofBytes_utf8`).
-/

namespace LunchRush.Text

variable {rest : List UInt8}

/-- A byte that ends the character that has begun. -/
theorem readBytes_last {begun : Begun} {n : Nat} (hn : n < 256) (hlacks : begun.lacks = 1)
    (hleast : begun.least ≤ n) (hgreatest : n ≤ begun.greatest) :
    readBytes (some begun) (UInt8.ofNat n :: rest) =
      Char.ofNat (begun.bits * 64 + (n - 0x80)) :: readBytes none rest := by
  have hbyte : (UInt8.ofNat n).toNat = n := UInt8.toNat_ofNat_of_lt' hn
  simp only [readBytes, readByte, hbyte]
  rw [if_neg (by simp; omega), if_pos (by omega)]
  rfl

/-- A byte in the middle of a character. -/
theorem readBytes_next {begun : Begun} {n : Nat} (hn : n < 256) (hlacks : 1 < begun.lacks)
    (hleast : begun.least ≤ n) (hgreatest : n ≤ begun.greatest) :
    readBytes (some begun) (UInt8.ofNat n :: rest) =
      readBytes (some ⟨begun.lacks - 1, 0x80, 0xbf, begun.bits * 64 + (n - 0x80)⟩) rest := by
  have hbyte : (UInt8.ofNat n).toNat = n := UInt8.toNat_ofNat_of_lt' hn
  simp only [readBytes, readByte, hbyte]
  rw [if_neg (by simp; omega), if_neg (by omega)]
  rfl

/-- A byte that begins a character. -/
theorem readBytes_first {begun : Begun} {n : Nat} (hn : n < 256) (hlow : 0x80 ≤ n)
    (hbegun : begun? n = some begun) :
    readBytes none (UInt8.ofNat n :: rest) = readBytes (some begun) rest := by
  have hbyte : (UInt8.ofNat n).toNat = n := UInt8.toNat_ofNat_of_lt' hn
  simp only [readBytes, readByte, readFirst, hbyte]
  rw [if_neg (by omega), hbegun]
  rfl

/-- A character of ASCII is its byte. -/
theorem readBytes_ascii {n : Nat} (hn : n < 0x80) :
    readBytes none (UInt8.ofNat n :: rest) = Char.ofNat n :: readBytes none rest := by
  have hbyte : (UInt8.ofNat n).toNat = n := UInt8.toNat_ofNat_of_lt' (Nat.lt_trans hn (by decide))
  simp only [readBytes, readByte, readFirst, hbyte]
  rw [if_pos hn]
  rfl

/-- The bounds of the second byte leave out characters with a shorter form and the surrogates. -/
theorem begun?_three {v : Nat} (hlow : 0x800 ≤ v) (hhigh : v ≤ 0xffff) (hv : v < 0xd800 ∨ 0xdfff < v) :
    ∃ least greatest, begun? (v / 4096 % 16 + 224) = some ⟨2, least, greatest, v / 4096 % 16⟩ ∧
      least ≤ v / 64 % 64 + 128 ∧ v / 64 % 64 + 128 ≤ greatest := by
  unfold begun?
  rw [if_neg (by omega), if_neg (by omega)]
  by_cases h0 : v / 4096 % 16 = 0
  · refine ⟨0xa0, 0xbf, ?_, by omega, by omega⟩
    rw [if_pos (by omega), h0]
  · rw [if_neg (by omega)]
    by_cases hd : v / 4096 % 16 = 0xd
    · refine ⟨0x80, 0x9f, ?_, by omega, by omega⟩
      rw [if_pos (by omega), hd]
    · refine ⟨0x80, 0xbf, ?_, by omega, by omega⟩
      rw [if_neg (by omega), if_pos (by omega), Nat.add_sub_cancel]

/-- So do they in a character of four bytes, and they leave out what lies above all characters. -/
theorem begun?_four {v : Nat} (hlow : 0x10000 ≤ v) (hhigh : v < 0x110000) :
    ∃ least greatest, begun? (v / 262144 % 8 + 240) = some ⟨3, least, greatest, v / 262144 % 8⟩ ∧
      least ≤ v / 4096 % 64 + 128 ∧ v / 4096 % 64 + 128 ≤ greatest := by
  unfold begun?
  rw [if_neg (by omega), if_neg (by omega), if_neg (by omega), if_neg (by omega), if_neg (by omega)]
  by_cases h0 : v / 262144 % 8 = 0
  · refine ⟨0x90, 0xbf, ?_, by omega, by omega⟩
    rw [if_pos (by omega), h0]
  · rw [if_neg (by omega)]
    by_cases h4 : v / 262144 % 8 = 4
    · refine ⟨0x80, 0x8f, ?_, by omega, by omega⟩
      rw [if_neg (by omega), if_pos (by omega), h4]
    · refine ⟨0x80, 0xbf, ?_, by omega, by omega⟩
      rw [if_pos (by omega), Nat.add_sub_cancel]

/-- A character is read from its bytes. -/
theorem readBytes_char (c : Char) :
    readBytes none (String.utf8EncodeChar c ++ rest) = c :: readBytes none rest := by
  have hvalid : c.val.toNat < 0xd800 ∨ 0xdfff < c.val.toNat ∧ c.val.toNat < 0x110000 := c.valid
  have hchar : ∀ n, n = c.val.toNat → Char.ofNat n = c := by
    rintro n rfl
    exact Char.ofNat_toNat c
  -- the cases are those of the number of bytes, and the number of the character is put together from their bits
  unfold String.utf8EncodeChar
  generalize c.val.toNat = v at hvalid hchar
  dsimp only
  split
  · show readBytes none (UInt8.ofNat v :: rest) = _
    rw [readBytes_ascii (by omega), hchar v rfl]
  · split
    · show readBytes none (UInt8.ofNat _ :: UInt8.ofNat _ :: rest) = _
      have hbegun : begun? (v / 64 % 32 + 192) = some ⟨1, 0x80, 0xbf, v / 64 % 32⟩ := by
        unfold begun?
        rw [if_neg (by omega), if_pos (by omega), Nat.add_sub_cancel]
      rw [readBytes_first (by omega) (by omega) hbegun,
        readBytes_last (by omega) rfl (by dsimp only; omega) (by dsimp only; omega), hchar _ (by dsimp only; omega)]
    · split
      · show readBytes none (UInt8.ofNat _ :: UInt8.ofNat _ :: UInt8.ofNat _ :: rest) = _
        obtain ⟨least, greatest, hbegun, hleast, hgreatest⟩ :=
          begun?_three (v := v) (by omega) (by omega) (by omega)
        rw [readBytes_first (by omega) (by omega) hbegun,
          readBytes_next (by omega) (by dsimp only; omega) hleast hgreatest,
          readBytes_last (by omega) rfl (by dsimp only; omega) (by dsimp only; omega),
          hchar _ (by dsimp only; omega)]
      · show readBytes none (UInt8.ofNat _ :: UInt8.ofNat _ :: UInt8.ofNat _ :: UInt8.ofNat _ :: rest) = _
        obtain ⟨least, greatest, hbegun, hleast, hgreatest⟩ := begun?_four (v := v) (by omega) (by omega)
        rw [readBytes_first (by omega) (by omega) hbegun,
          readBytes_next (by omega) (by dsimp only; omega) hleast hgreatest,
          readBytes_next (by omega) (by dsimp only; omega) (by dsimp only; omega) (by dsimp only; omega),
          readBytes_last (by omega) rfl (by dsimp only; omega) (by dsimp only; omega),
          hchar _ (by dsimp only; omega)]

/-- The bytes of a text are read as that text. -/
theorem ofBytes_utf8 (s : String) : ofBytes s.toUTF8.toList = s := by
  have hbytes : s.toUTF8.toList = s.toList.flatMap String.utf8EncodeChar := by
    have hs : s.toUTF8 = (String.ofList s.toList).toByteArray := by
      rw [String.ofList_toList]
      rfl
    rw [hs, String.toByteArray_ofList, toList_eq]
    simp [List.utf8Encode]
  have hread : ∀ cs : List Char, readBytes none (cs.flatMap String.utf8EncodeChar) = cs := by
    intro cs
    induction cs with
    | nil => rfl
    | cons c cs ih => rw [List.flatMap_cons, readBytes_char, ih]
  rw [ofBytes, hbytes, hread, String.ofList_toList]

end LunchRush.Text
