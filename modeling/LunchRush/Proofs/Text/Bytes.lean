/-!
# The bytes of a text

A character is written as one to four bytes in UTF-8, and only those of ASCII hold a byte below 0x80.
-/

namespace LunchRush.Text

theorem toList_loop_eq (bytes : ByteArray) (i : Nat) (taken : List UInt8) :
    ByteArray.toList.loop bytes i taken = taken.reverse ++ bytes.data.toList.drop i := by
  fun_induction ByteArray.toList.loop bytes i taken with
  | case1 i taken h ih =>
    have hi : i < bytes.data.toList.length := by simpa using h
    rw [ih, List.drop_eq_getElem_cons hi]
    simp [ByteArray.get!, h]
  | case2 i taken h =>
    have hi : bytes.data.toList.length ≤ i := by simpa using Nat.le_of_not_lt h
    rw [List.drop_eq_nil_of_le hi, List.append_nil]

theorem toList_eq (bytes : ByteArray) : bytes.toList = bytes.data.toList := by
  rw [ByteArray.toList, toList_loop_eq]
  rfl

theorem utf8_singleton (c : Char) : (String.singleton c).toUTF8.toList = String.utf8EncodeChar c := by
  show (String.singleton c).toByteArray.toList = _
  rw [String.toByteArray_singleton, List.utf8Encode_singleton, toList_eq, List.toList_data_toByteArray]

theorem utf8_ne_nil (c : Char) : String.utf8EncodeChar c ≠ [] := by
  unfold String.utf8EncodeChar
  dsimp only
  split
  · exact List.cons_ne_nil _ _
  · split
    · exact List.cons_ne_nil _ _
    · split <;> exact List.cons_ne_nil _ _

/-- A byte below 0x80 stands for a character of its own. -/
theorem eq_of_utf8 {c d : Char} (hc : c.toNat < 0x80)
    (h : UInt8.ofNat c.toNat ∈ String.utf8EncodeChar d) : d = c := by
  have hbyte : ∀ n < 256, UInt8.ofNat c.toNat = UInt8.ofNat n → c.toNat = n := by
    intro n hn he
    have hnat := congrArg UInt8.toNat he
    rw [UInt8.toNat_ofNat', UInt8.toNat_ofNat', Nat.mod_eq_of_lt hn] at hnat
    omega
  have hd : d.toNat = d.val.toNat := rfl
  unfold String.utf8EncodeChar at h
  dsimp only at h
  rw [← hd] at h
  split at h
  case isTrue hsmall =>
    have he := hbyte _ (by omega) (List.mem_singleton.1 h)
    exact (Char.toNat_inj.1 he).symm
  -- the other bytes are 0x80 or above
  case isFalse =>
    exfalso
    split at h
    case isTrue =>
      simp only [List.mem_cons, List.not_mem_nil, or_false] at h
      rcases h with h | h <;> have := hbyte _ (by omega) h <;> omega
    case isFalse =>
      split at h
      case isTrue =>
        simp only [List.mem_cons, List.not_mem_nil, or_false] at h
        rcases h with h | h | h <;> have := hbyte _ (by omega) h <;> omega
      case isFalse =>
        simp only [List.mem_cons, List.not_mem_nil, or_false] at h
        rcases h with h | h | h | h <;> have := hbyte _ (by omega) h <;> omega

theorem mem_of_fromUTF8? {c : Char} {bytes : List UInt8} {s : String} (hc : c.toNat < 0x80)
    (hs : String.fromUTF8? ⟨bytes.toArray⟩ = some s) (hb : UInt8.ofNat c.toNat ∈ bytes) :
    c ∈ s.toList := by
  have hbytes : bytes = s.toList.flatMap String.utf8EncodeChar := by
    unfold String.fromUTF8? at hs
    split at hs
    case isFalse => cases hs
    case isTrue hv =>
      have hutf := congrArg String.toByteArray (Option.some.inj hs)
      rw [← String.ofList_toList (s := s), String.toByteArray_ofList] at hutf
      have hdata := congrArg (fun b => b.data.toList) hutf
      simpa [String.fromUTF8, List.utf8Encode] using hdata
  rw [hbytes, List.mem_flatMap] at hb
  obtain ⟨d, hd, hmem⟩ := hb
  exact eq_of_utf8 hc hmem ▸ hd

end LunchRush.Text
