import LunchRush.Proofs.Text.Bytes
import LunchRush.Proofs.Url.Cut
/-!
# Blanks inside an authority

No authority of a web address holds a blank or a control character in its host or its port, so nothing
is read where one is written behind it (`compose_blank`).
-/

namespace LunchRush.Url

theorem hexDigit?_margin {c : Char} (hm : isMargin c = true) : hexDigit? c = none := by
  have hle : c.toNat ≤ 0x20 := by simpa [isMargin] using hm
  have hlow : ∀ d : Char, 0x20 < d.toNat → ¬ d ≤ c := by
    intro d hd hdc
    have : d.toNat ≤ c.toNat := hdc
    omega
  unfold hexDigit?
  rw [if_neg, if_neg, if_neg]
  · exact fun h => hlow 'A' (by decide) h.1
  · exact fun h => hlow 'a' (by decide) h.1
  · intro h
    simp only [Char.isDigit, Bool.and_eq_true, decide_eq_true_eq] at h
    exact hlow '0' (by decide) h.1

theorem percentDecode_mem {cs : List Char} {c : Char} (hm : isMargin c = true) (hc : c ∈ cs) :
    UInt8.ofNat c.toNat ∈ percentDecode cs := by
  have hpercent : c ≠ '%' := by
    rintro rfl
    cases hm
  have hdigit := hexDigit?_margin hm
  fun_induction percentDecode cs with
  | case1 => cases hc
  | case2 a b rest high low hb ha ih =>
    apply List.mem_cons_of_mem
    apply ih
    rcases List.mem_cons.1 hc with rfl | hc
    · exact absurd rfl hpercent
    rcases List.mem_cons.1 hc with rfl | hc
    · rw [hdigit] at ha
      cases ha
    rcases List.mem_cons.1 hc with rfl | hc
    · rw [hdigit] at hb
      cases hb
    exact hc
  | case3 a b rest _ ih =>
    rcases List.mem_cons.1 hc with rfl | hc
    · exact absurd rfl hpercent
    · exact List.mem_cons_of_mem _ (ih hc)
  | case4 d rest _ ih =>
    apply List.mem_append.2
    rcases List.mem_cons.1 hc with rfl | hc
    · have hle : c.toNat ≤ 0x20 := by simpa [isMargin] using hm
      have hsmall : c.toNat ≤ 127 := by omega
      have hchar : String.utf8EncodeChar c = [UInt8.ofNat c.toNat] := if_pos hsmall
      rw [Text.utf8_singleton, hchar]
      exact .inl (List.mem_singleton_self _)
    · exact .inr (ih hc)

/-! ## Hosts and ports -/

/-- No domain holds a blank: among other characters of ASCII it is forbidden, and no international name has
one. -/
theorem domain?_blank [Names] {cs : List Char} {c : Char} (hm : isMargin c = true) (hc : c ∈ cs) :
    domain? cs = none := by
  have hle : c.toNat ≤ 0x20 := by simpa [isMargin] using hm
  unfold domain?
  cases hs : String.fromUTF8? ⟨(percentDecode cs).toArray⟩ with
  | none => rfl
  | some decoded =>
    have hmem := Text.mem_of_fromUTF8? (by omega) hs (percentDecode_mem hm hc)
    have hlower : c.toLower = c := by
      unfold Char.toLower
      rw [dif_neg]
      intro h
      have hupper : 65 ≤ c.toNat := h.1
      omega
    have hforbidden : isForbidden c = true := by simp [isForbidden, hle]
    simp only [bind, Option.bind]
    split
    · unfold plainDomain?
      rw [if_pos]
      exact List.any_eq_true.2 ⟨c, List.mem_map.2 ⟨c, hmem, hlower⟩, hforbidden⟩
    · exact Names.blank decoded.toList c hmem hle

theorem takeHost_append {more : List Char} (hm : ∀ c ∈ more, c ≠ ':') (cs : List Char) :
    ∀ bracketed, takeHost bracketed (cs ++ more) =
      match takeHost bracketed cs with
      | (name, []) => (name ++ more, [])
      | (name, rest) => (name, rest ++ more) := by
  have hall : ∀ bracketed, takeHost bracketed more = (more, []) := by
    induction more with
    | nil => intro bracketed; rfl
    | cons c more ih =>
      intro bracketed
      have hc : c ≠ ':' := hm c List.mem_cons_self
      rw [takeHost, if_neg (by simp [hc])]
      dsimp only
      rw [ih fun d hd => hm d (List.mem_cons_of_mem _ hd)]
  induction cs with
  | nil => intro bracketed; exact hall bracketed
  | cons c cs ih =>
    intro bracketed
    rw [List.cons_append, takeHost, takeHost]
    split
    case isTrue => rfl
    case isFalse =>
      dsimp only
      rw [ih]
      generalize takeHost _ cs = taken
      obtain ⟨name, rest⟩ := taken
      cases rest <;> rfl

/-- Behind a host comes a colon, if anything. -/
theorem takeHost_colon {cs : List Char} : ∀ {bracketed : Bool} {name rest : List Char} {d : Char},
    takeHost bracketed cs = (name, d :: rest) → d = ':' := by
  induction cs with
  | nil =>
    intro bracketed name rest d h
    cases h
  | cons c cs ih =>
    intro bracketed name rest d h
    rw [takeHost] at h
    split at h
    case isTrue hc =>
      cases h
      simp only [Bool.and_eq_true, decide_eq_true_eq] at hc
      exact hc.1
    case isFalse =>
      dsimp only at h
      cases htaken : takeHost (if c = '[' then true else if c = ']' then false else bracketed) cs with
      | mk host left =>
        rw [htaken] at h
        cases h
        exact ih htaken

/-- Blanks and control characters that count. -/
structure Blanks (cs : List Char) : Prop where
  some : cs ≠ []
  margin : ∀ c ∈ cs, isMargin c = true

theorem Blanks.ne {cs : List Char} (h : Blanks cs) {mark c : Char} (hc : c ∈ cs)
    (hmark : isMargin mark = false) : c ≠ mark := by
  rintro rfl
  rw [h.margin c hc] at hmark
  cases hmark

variable {blanks : List Char}

theorem ofSpecial_blank [Names] (hb : Blanks blanks) (name : List Char) (host : Host) :
    Host.ofSpecial (name ++ blanks) ≠ .ok host := by
  obtain ⟨front, c, rfl⟩ := (List.eq_nil_or_concat blanks).resolve_left hb.some
  have hc : c ∈ front.concat c := by simp
  intro h
  unfold Host.ofSpecial at h
  split at h
  case h_1 rest hname =>
    -- the address ends in the blank and not in a bracket
    unfold Host.ofBracketed at h
    split at h
    case h_2 => cases h
    case h_1 hlast =>
      have hend : (name ++ front.concat c).getLast? = some c := by simp
      rw [hname, List.getLast?_cons, hlast] at hend
      exact hb.ne hc (by decide) (Option.some.inj hend).symm
  case h_2 =>
    rw [domain?_blank (hb.margin c hc) (List.mem_append_right _ hc)] at h
    cases h

theorem port?_blank (hb : Blanks blanks) (scheme : String) (cs : List Char) (port : Option Nat) :
    port? scheme (cs ++ blanks) ≠ .ok port := by
  obtain ⟨c, more, rfl⟩ := List.exists_cons_of_ne_nil hb.some
  have hdigit : c.isDigit = false := by
    by_contra hd
    simp only [Bool.not_eq_false, Char.isDigit, Bool.and_eq_true, decide_eq_true_eq] at hd
    have hlow : '0'.toNat ≤ c.toNat := hd.1
    have hle : c.toNat ≤ 0x20 := by simpa [isMargin] using hb.margin c List.mem_cons_self
    exact absurd (hlow.trans hle) (by decide)
  intro h
  unfold port? at h
  dsimp only at h
  split at h
  case isTrue => cases h
  case isFalse =>
    split at h
    case h_2 => cases h
    case h_1 hdrop =>
      have hall := List.dropWhile_eq_nil_iff.1 hdrop c (by simp)
      rw [hdigit] at hall
      cases hall

theorem hostAndPort_blank [Names] (hb : Blanks blanks) (scheme : String) (cs : List Char)
    (found : Host × Option Nat) : hostAndPort scheme true (cs ++ blanks) ≠ .ok found := by
  intro h
  unfold hostAndPort at h
  rw [takeHost_append fun c hc => hb.ne hc (by decide)] at h
  cases htaken : takeHost false cs with
  | mk name rest =>
    rw [htaken] at h
    cases rest with
    | nil =>
      have hempty : (name ++ blanks).isEmpty = false := by
        simp [hb.some]
      simp only [hempty, Bool.and_false] at h
      obtain ⟨host, hhost, -⟩ := ok_of_bind h
      exact ofSpecial_blank hb name host hhost
    | cons d rest =>
      obtain rfl := takeHost_colon htaken
      cases name with
      | nil => cases h
      | cons first name =>
        obtain ⟨host, -, h⟩ := ok_of_bind h
        obtain ⟨port, hport, -⟩ := ok_of_bind h
        exact port?_blank hb scheme rest port hport

theorem splitAtLast_append {mark : Char} {more : List Char} (hm : ∀ c ∈ more, c ≠ mark)
    (cs : List Char) : splitAtLast mark (cs ++ more) =
      (splitAtLast mark cs).map fun (before, after) => (before, after ++ more) := by
  unfold splitAtLast
  dsimp only
  have hall : ∀ c ∈ more.reverse, (c != mark) = true := fun c hc => by
    simpa using hm c (List.mem_reverse.1 hc)
  rw [List.reverse_append, List.dropWhile_append_of_pos hall, List.takeWhile_append_of_pos hall]
  cases cs.reverse.dropWhile (· != mark) with
  | nil => rfl
  | cons c before => simp

/-- Nothing is read where a blank is written behind an authority. -/
theorem compose_blank [Names] (hb : Blanks blanks) (scheme : String) (site tail : List Char) (u : Url) :
    compose scheme (site ++ blanks) tail ≠ .ok u := by
  intro h
  obtain ⟨v, hv, -⟩ := ok_of_map h
  rw [authority?_eq, splitAtLast_append fun c hc => hb.ne hc (by decide)] at hv
  cases hsplit : splitAtLast '@' site with
  | none =>
    rw [hsplit] at hv
    obtain ⟨found, hfound, -⟩ := ok_of_map hv
    exact hostAndPort_blank hb scheme site found hfound
  | some parts =>
    rw [hsplit] at hv
    obtain ⟨found, hfound, -⟩ := ok_of_bind hv
    exact hostAndPort_blank hb scheme parts.2 found hfound

end LunchRush.Url
