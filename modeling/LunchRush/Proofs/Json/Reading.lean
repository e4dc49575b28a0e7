import LunchRush.Proofs.Json.Floats
import LunchRush.Proofs.Json.Sorted
/-!
# JSON text read back

The compact text of a value is read back wherever it stands: texts as they were (`reads_text`),
floats as some value (`reads_float`), and records as the fields that their values are read as
(`reads_record`). So what is written of such values is JSON text (`Reads.read?`).
-/

namespace LunchRush.Json

/-! ## Quoted texts -/

theorem hexNumber?_low : ∀ n < 0x10, Tree.hexNumber? ['0', '0', '0', Nat.digitChar n] = some n := by decide

theorem hexNumber?_high : ∀ n < 0x10, Tree.hexNumber? ['0', '0', '1', Nat.digitChar n] = some (0x10 + n) := by
  decide

/-- A piece that stands for a character: control characters may be written by their numbers. -/
inductive StandsFor (c : Char) : Tree.Piece → Prop
  | char : StandsFor c (.char c)
  | unit : c.toNat < 0x20 → StandsFor c (.unit c.toNat)

theorem joinPieces?_cons {c : Char} {piece : Tree.Piece} (h : StandsFor c piece) (pieces : List Tree.Piece) :
    Tree.joinPieces? (piece :: pieces) = (Tree.joinPieces? pieces).map (c :: ·) := by
  cases h with
  | char => rfl
  | unit hc =>
    have hhigh : Tree.isHighHalf c.toNat = false := by
      simp [Tree.isHighHalf]
      omega
    have hlow : Tree.isLowHalf c.toNat = false := by
      simp [Tree.isLowHalf]
      omega
    rcases pieces with _ | ⟨_ | _, pieces⟩ <;> simp [Tree.joinPieces?, hhigh, hlow, Char.ofNat_toNat]

theorem pieces?_simple {e c : Char} (hu : e ≠ 'u') (he : Tree.simpleEscape? e = some c) (rest : List Char) :
    Tree.pieces? ('\\' :: e :: rest) =
      (Tree.pieces? rest).map fun (pieces, rest) => (.char c :: pieces, rest) := by
  rw [Tree.pieces?]
  · rw [he]
    cases Tree.pieces? rest <;> rfl
  · exact fun _ _ _ _ _ h => absurd h hu

theorem pieces?_unit {a b c d : Char} {n : Nat} (hn : Tree.hexNumber? [a, b, c, d] = some n)
    (rest : List Char) : Tree.pieces? ('\\' :: 'u' :: a :: b :: c :: d :: rest) =
      (Tree.pieces? rest).map fun (pieces, rest) => (.unit n :: pieces, rest) := by
  rw [Tree.pieces?, hn]
  cases Tree.pieces? rest <;> rfl

theorem pieces?_plain {c : Char} (hquote : c ≠ '"') (hescape : c ≠ '\\') (hc : ¬ c.toNat < 0x20)
    (rest : List Char) : Tree.pieces? (c :: rest) =
      (Tree.pieces? rest).map fun (pieces, rest) => (.char c :: pieces, rest) := by
  rw [Tree.pieces?, if_neg hc]
  · cases Tree.pieces? rest <;> rfl
  · exact hquote
  · exact fun _ _ _ _ _ h => absurd h hescape
  · exact fun _ _ h => absurd h hescape

/-- What a character is written as is read as one piece that stands for it. -/
theorem pieces?_escaped (c : Char) (rest : List Char) : ∃ piece, StandsFor c piece ∧
    Tree.pieces? (escaped c ++ rest) =
      (Tree.pieces? rest).map fun (pieces, rest) => (piece :: pieces, rest) := by
  have hsimple : ∀ {e : Char}, e ≠ 'u' → Tree.simpleEscape? e = some c → ∃ piece, StandsFor c piece ∧
      Tree.pieces? (['\\', e] ++ rest) =
        (Tree.pieces? rest).map fun (pieces, rest) => (piece :: pieces, rest) :=
    fun hu he => ⟨_, .char, pieces?_simple hu he rest⟩
  unfold escaped
  split_ifs with h1 h2 h3 h4 h5 h6 h7 hlow hhigh
  · exact hsimple (e := '"') (by decide) (congrArg some h1.symm)
  · exact hsimple (e := '\\') (by decide) (congrArg some h2.symm)
  · exact hsimple (e := 'n') (by decide) (congrArg some h3.symm)
  · exact hsimple (e := 'r') (by decide) (congrArg some h4.symm)
  · exact hsimple (e := 't') (by decide) (congrArg some h5.symm)
  · exact hsimple (e := 'b') (by decide) (congrArg some h6.symm)
  · exact hsimple (e := 'f') (by decide) (congrArg some h7.symm)
  · refine ⟨_, .unit (by omega), ?_⟩
    rw [Text.hexDigits, Nat.toDigits_of_lt_base hlow]
    exact pieces?_unit (hexNumber?_low _ hlow) rest
  · refine ⟨_, .unit hhigh, ?_⟩
    obtain ⟨n, hn⟩ : ∃ n, c.toNat = 0x10 + n := ⟨c.toNat - 0x10, by omega⟩
    have hdigits : Text.hexDigits c.toNat = ['1', Nat.digitChar n] := by
      rw [Text.hexDigits, hn, Nat.toDigits_of_base_le (by decide) (by omega),
        Nat.toDigits_of_lt_base (by omega), show (0x10 + n) / 0x10 = 1 by omega,
        show (0x10 + n) % 0x10 = n by omega]
      rfl
    rw [hdigits]
    exact pieces?_unit (hn ▸ hexNumber?_high n (by omega)) rest
  · exact ⟨_, .char, pieces?_plain h1 h2 hhigh rest⟩

/-- A text is read back up to its closing quote. -/
theorem quoted?_escaped (s : String) (rest : List Char) :
    Tree.quoted? (s.toList.flatMap escaped ++ '"' :: rest) = some (some s, rest) := by
  have key : ∀ cs : List Char, ∃ pieces, Tree.joinPieces? pieces = some cs ∧
      Tree.pieces? (cs.flatMap escaped ++ '"' :: rest) = some (pieces, rest) := by
    intro cs
    induction cs with
    | nil => exact ⟨[], rfl, rfl⟩
    | cons c cs ih =>
      obtain ⟨pieces, hjoin, hread⟩ := ih
      obtain ⟨piece, hpiece, hc⟩ := pieces?_escaped c (cs.flatMap escaped ++ '"' :: rest)
      refine ⟨piece :: pieces, ?_, ?_⟩
      · rw [joinPieces?_cons hpiece, hjoin]
        rfl
      · rw [List.flatMap_cons, List.append_assoc, hc, hread]
        rfl
  obtain ⟨pieces, hjoin, hread⟩ := key s.toList
  unfold Tree.quoted?
  simp [hread, hjoin]

/-! ## Values -/

/-- Text that is read as a value, whatever follows it that cannot belong to a number; its lists and
records nest so deep at most. -/
def Reads (depth : Nat) (cs : List Char) (v : Json) : Prop :=
  ∃ tree : Tree, tree.depth ≤ depth ∧ ofTree? tree = some v ∧
    ∀ fuel rest, cs.length ≤ fuel → Ends rest → Tree.value? fuel (cs ++ rest) = some (tree, rest)

/-- Text that is read wherever it stands is JSON text. -/
theorem Reads.read? {depth : Nat} {cs : List Char} {v : Json} (h : Reads depth cs v) (hd : depth ≤ 127) :
    read? (String.ofList cs) = some v := by
  obtain ⟨tree, hdepth, hv, hread⟩ := h
  have hwhole := hread (cs.length + 1) [] (Nat.le_succ _) (.nil _)
  rw [List.append_nil] at hwhole
  have htree : Tree.read? (String.ofList cs) = some tree := by
    unfold Tree.read?
    rw [String.toList_ofList]
    simp only [hwhole]
    rfl
  unfold Json.read?
  simp only [htree, Option.bind_eq_bind, Option.bind_some, if_pos (hdepth.trans hd), hv]

theorem reads_text (s : String) : Reads 0 (compactChars (.text s)) (.text s) := by
  refine ⟨.text (some s), le_rfl, rfl, fun fuel rest hfuel _ => ?_⟩
  change (textChars s).length ≤ fuel at hfuel
  change Tree.value? fuel (textChars s ++ rest) = _
  obtain ⟨fuel, rfl⟩ : ∃ f, fuel = f + 1 := ⟨fuel - 1, by simp [textChars] at hfuel; omega⟩
  have hbody := quoted?_escaped s rest
  have hchars : textChars s ++ rest = '"' :: (s.toList.flatMap escaped ++ '"' :: rest) := by
    simp [textChars]
  rw [hchars]
  unfold Tree.value?
  simp [Tree.skipSpace, Tree.isJsonSpace, hbody]

/-- A word is read back, and so is what follows it. -/
theorem reads_null : Reads 0 "null".toList .null := by
  refine ⟨.null, le_rfl, rfl, fun fuel rest hfuel _ => ?_⟩
  obtain ⟨fuel, rfl⟩ : ∃ f, fuel = f + 1 := ⟨fuel - 1, by simp at hfuel; omega⟩
  rfl

/-- What begins as a number is read as one. -/
theorem value?_of_numeral? {c : Char} {cs rest : List Char} {n : Numeral} (hc : c = '-' ∨ c.isDigit = true)
    (hread : Tree.numeral? (c :: cs) = some (n, rest)) (fuel : Nat) :
    Tree.value? (fuel + 1) (c :: cs) = some (.number n, rest) := by
  have hne : ∀ d, d.isDigit = false → d ≠ '-' → c ≠ d := by
    rintro d hd hminus rfl
    exact hc.elim hminus fun hdigit => absurd (hd.symm.trans hdigit) (by decide)
  have hspace : Tree.skipSpace (c :: cs) = c :: cs := List.dropWhile_cons_of_neg <| by
    simp [Tree.isJsonSpace, hne ' ' rfl (by decide), hne '\n' rfl (by decide), hne '\t' rfl (by decide),
      hne '\r' rfl (by decide)]
  unfold Tree.value?
  rw [hspace]
  split
  case h_7 => 
    rw [hread]
    rfl
  all_goals
    rename_i h
    exact absurd (List.cons.inj h).1 (hne _ rfl (by decide))

theorem value?_numeral {n : Numeral} (h : n.Proper) (fuel : Nat) {rest : List Char} (hr : Ends rest) :
    Tree.value? (fuel + 1) (n.chars ++ rest) = some (.number n, rest) := by
  have hread := numeral?_chars h hr
  obtain ⟨c, cs, hcs, hc⟩ := n.chars_cons h rest
  rw [hcs] at hread ⊢
  exact value?_of_numeral? hc hread fuel

/-- A numeral is read as its value. -/
theorem reads_numeral {n : Numeral} (hn : n.Proper) {v : Json} (hv : n.value? = some v) :
    Reads 0 n.chars v := by
  refine ⟨.number n, le_rfl, hv, fun fuel rest hfuel hr => ?_⟩
  obtain ⟨c, cs, hcs, -⟩ := n.chars_cons hn []
  obtain ⟨fuel, rfl⟩ : ∃ f, fuel = f + 1 := ⟨fuel - 1, by simp at hcs; simp [hcs] at hfuel; omega⟩
  exact value?_numeral hn fuel hr

/-- JSON has no text for a float that is not finite. -/
theorem show_of_not_finite {x : Float} (hx : x.isFinite = false) : Number.Layout.json.show x = "null" := by
  unfold Number.Layout.show
  rw [(Number.ofFloat?_eq_none_iff x).2 hx]
  dsimp only
  split
  · rfl
  · split <;> rfl

/-- Whatever float it is, its text is read as some value: null where JSON cannot write it. -/
theorem reads_float (x : Float) : ∃ v, Reads 0 (compactChars (.float x)) v := by
  change ∃ v, Reads 0 (Number.Layout.json.show x).toList v
  cases hb : Number.Binary.ofFloat? x with
  | none =>
    rw [show_of_not_finite ((Number.ofFloat?_eq_none_iff x).1 hb)]
    exact ⟨.null, reads_null⟩
  | some b =>
    obtain ⟨n, hn, hchars, y, hy⟩ := exists_numeral (Number.ofFloat?_spec hb).1
    rw [Number.Layout.show, hb, String.toList_ofList, ← hchars]
    exact ⟨.float y, reads_numeral hn hy⟩

/-! ## Records -/

theorem fields?_last (key : String) {cs rest : List Char} {fuel : Nat} {tree : Tree}
    (hvalue : Tree.value? fuel (cs ++ '\x7d' :: rest) = some (tree, '\x7d' :: rest)) :
    Tree.fields? (fuel + 1) (textChars key ++ ':' :: (cs ++ '\x7d' :: rest)) =
      some ([(some key, tree)], rest) := by
  have hkey := quoted?_escaped key (':' :: (cs ++ '\x7d' :: rest))
  simp [Tree.fields?, textChars, Tree.skipSpace, Tree.isJsonSpace, hkey, hvalue]

theorem fields?_more (key : String) {cs more rest : List Char} {fuel : Nat} {tree : Tree}
    {trees : List (Option String × Tree)}
    (hvalue : Tree.value? fuel (cs ++ ',' :: more) = some (tree, ',' :: more))
    (hmore : Tree.fields? fuel more = some (trees, rest)) :
    Tree.fields? (fuel + 1) (textChars key ++ ':' :: (cs ++ ',' :: more)) =
      some ((some key, tree) :: trees, rest) := by
  have hkey := quoted?_escaped key (':' :: (cs ++ ',' :: more))
  simp [Tree.fields?, textChars, Tree.skipSpace, Tree.isJsonSpace, hkey, hvalue, hmore]

/-- Fields and what the texts of their values are read as. -/
abbrev FieldsRead (depth : Nat) : List (String × Json) → List (String × Json) → Prop :=
  List.Forall₂ fun written read => read.1 = written.1 ∧ Reads depth (compactChars written.2) read.2

theorem fields?_compact {depth : Nat} {fields read : List (String × Json)} (h : FieldsRead depth fields read)
    (hne : fields ≠ []) : ∃ trees, Tree.fieldsDepth trees ≤ depth ∧ ofFields? trees = some read ∧
      ∀ fuel rest, (compactFields fields).length < fuel →
        Tree.fields? fuel (compactFields fields ++ '\x7d' :: rest) = some (trees, rest) := by
  induction h with
  | nil => exact absurd rfl hne
  | @cons written read fields reads hfirst hfields ih =>
    obtain ⟨written, value⟩ := written
    obtain ⟨key, v⟩ := read
    obtain ⟨hkey, tree, hdepth, hv, hread⟩ := hfirst
    obtain rfl : key = written := hkey
    dsimp only at hv hread
    cases hfields with
    | nil =>
      refine ⟨[(some key, tree)], by simpa [Tree.fieldsDepth] using hdepth, by simp [ofFields?, hv], ?_⟩
      intro fuel rest hfuel
      obtain ⟨fuel, rfl⟩ : ∃ f, fuel = f + 1 := ⟨fuel - 1, by omega⟩
      have hlast := fields?_last key (hread fuel ('\x7d' :: rest) ?_ (.cons _ rfl))
      · simpa [compactFields] using hlast
      · simp [compactFields] at hfuel
        omega
    | @cons second read' fields reads hsecond hfields =>
      obtain ⟨trees, htdepth, htrees, htread⟩ := ih (by simp)
      refine ⟨(some key, tree) :: trees, ?_, by simp [ofFields?, hv, htrees], ?_⟩
      · simp [Tree.fieldsDepth, hdepth, htdepth]
      intro fuel rest hfuel
      obtain ⟨fuel, rfl⟩ : ∃ f, fuel = f + 1 := ⟨fuel - 1, by omega⟩
      have hmore := fields?_more key
        (hread fuel (',' :: (compactFields (second :: fields) ++ '\x7d' :: rest)) ?_ (.cons _ rfl))
        (htread fuel rest ?_)
      · simpa [compactFields] using hmore
      all_goals
        simp [compactFields] at hfuel
        omega

theorem compactFields_cons {fields : List (String × Json)} (hne : fields ≠ []) :
    ∃ cs, compactFields fields = '"' :: cs := by
  rcases fields with _ | ⟨⟨key, value⟩, _ | ⟨second, fields⟩⟩
  · exact absurd rfl hne
  · exact ⟨_, rfl⟩
  · exact ⟨_, rfl⟩

/-- The text of a record is read as the record of what its values are read as. -/
theorem reads_record {depth : Nat} {fields read : List (String × Json)} (h : FieldsRead depth fields read)
    (hne : fields ≠ []) : Reads (depth + 1) (compactChars (.record fields)) (.record (sortFields read)) := by
  obtain ⟨trees, hdepth, htrees, hread⟩ := fields?_compact h hne
  refine ⟨.record trees, Nat.succ_le_succ hdepth, by simp [ofTree?, htrees], fun fuel rest hfuel _ => ?_⟩
  obtain ⟨fuel, rfl⟩ : ∃ f, fuel = f + 1 := ⟨fuel - 1, by simp [compactChars] at hfuel; omega⟩
  have hfields := hread fuel rest (by simp [compactChars] at hfuel; omega)
  obtain ⟨cs, hcs⟩ := compactFields_cons hne
  have hchars : compactChars (.record fields) ++ rest = '\x7b' :: '"' :: (cs ++ '\x7d' :: rest) := by
    simp [compactChars, hcs]
  rw [hcs, List.cons_append] at hfields
  rw [hchars]
  unfold Tree.value?
  simp [Tree.skipSpace, Tree.isJsonSpace, hfields]

end LunchRush.Json
