import LunchRush.Proofs.Results
import LunchRush.Proofs.Text.Span
import LunchRush.Url.Parser
/-!
# How the text of a URL is cut

Where the scheme is that of a web address, a text is cut into scheme, authority and what comes after
(`exists_cut`, `Cut.parse`). A path that is written behind the text leaves the scheme as it is, and the
authority too, unless blanks at the end of the text get in between (`Cut.append`).
-/

namespace LunchRush.Url

open Text (Stops)

/-! ## The text that counts -/

/-- Blanks and control characters, which are dropped at the ends. -/
def isMargin (c : Char) : Bool := c.toNat ≤ 0x20

/-- Whether a character counts inside a text. -/
def isKept (c : Char) : Bool := c != '\t' && c != '\n' && c != '\r'

/-- The blanks at the end of a text that count once something is written behind it. -/
def ending (cs : List Char) : List Char :=
  ((cs.dropWhile isMargin).reverse.takeWhile isMargin).reverse.filter isKept

/-- The text that counts of a path that is written behind another text. -/
def kept (path : List Char) : List Char := (path.reverse.dropWhile isMargin).reverse.filter isKept

theorem isMargin_of_mem_ending {cs : List Char} {c : Char} (h : c ∈ ending cs) : isMargin c = true :=
  List.mem_takeWhile_imp (List.mem_reverse.1 (List.mem_filter.1 h).1)

theorem dropWhile_concat {c : Char} (hc : isMargin c = false) (front : List Char) :
    ∃ rest, (front ++ [c]).dropWhile isMargin = rest ++ [c] := by
  rw [List.dropWhile_append]
  split
  · exact ⟨[], by simp [hc]⟩
  · exact ⟨_, rfl⟩

theorem ending_eq_nil {cs : List Char} (h : ∀ c, cs.getLast? = some c → isMargin c = false) :
    ending cs = [] := by
  rcases List.eq_nil_or_concat cs with rfl | ⟨front, c, rfl⟩
  · rfl
  · have hc := h c (by simp)
    obtain ⟨rest, hrest⟩ := dropWhile_concat hc front
    rw [List.concat_eq_append, ending, hrest]
    simp [hc]

theorem significant_append (cs path : List Char) :
    significant (cs ++ '/' :: path) = significant cs ++ ending cs ++ '/' :: kept path := by
  have hfront : (cs ++ '/' :: path).dropWhile isMargin = cs.dropWhile isMargin ++ '/' :: path := by
    rw [List.dropWhile_append]
    split
    case isTrue h => rw [List.isEmpty_iff.1 h]; rfl
    case isFalse => rfl
  have hback : ∀ front : List Char, (front ++ '/' :: path).reverse.dropWhile isMargin =
      path.reverse.dropWhile isMargin ++ '/' :: front.reverse := by
    intro front
    rw [List.reverse_append, List.reverse_cons, List.append_assoc, List.dropWhile_append]
    split
    case isTrue h => rw [List.isEmpty_iff.1 h]; rfl
    case isFalse => rfl
  show ((((cs ++ '/' :: path).dropWhile isMargin).reverse.dropWhile isMargin).reverse).filter isKept = _
  rw [hfront, hback, List.reverse_append, List.reverse_cons, List.reverse_reverse, List.append_assoc,
    List.filter_append, List.singleton_append, List.filter_cons_of_pos (by decide)]
  congr 1
  show _ = (((cs.dropWhile isMargin).reverse.dropWhile isMargin).reverse).filter isKept ++ ending cs
  rw [ending, ← List.filter_append, ← List.reverse_append, List.takeWhile_append_dropWhile,
    List.reverse_reverse]

theorem significant_getLast? {cs : List Char} {c : Char} (h : cs.getLast? = some c)
    (hc : isMargin c = false) : (significant cs).getLast? = some c := by
  obtain ⟨front, rfl⟩ := List.getLast?_eq_some_iff.1 h
  obtain ⟨rest, hrest⟩ := dropWhile_concat hc front
  have hkept : isKept c = true := by
    simp only [isKept, Bool.and_eq_true, bne_iff_ne]
    refine ⟨⟨?_, ?_⟩, ?_⟩ <;> rintro rfl <;> cases hc
  show (((((front ++ [c]).dropWhile isMargin).reverse.dropWhile isMargin).reverse).filter
    isKept).getLast? = _
  rw [hrest]
  simp [hc, hkept]

/-! ## Scheme, authority, tail -/

theorem scheme?_append {cs rest : List Char} {scheme : String} (h : scheme? cs = some (scheme, rest))
    (more : List Char) : scheme? (cs ++ more) = some (scheme, rest ++ more) := by
  unfold scheme? at h
  split at h
  case h_2 => cases h
  case h_1 left hdrop =>
    obtain ⟨htake', hdrop'⟩ := Text.stretch_append hdrop more
    unfold scheme?
    rw [htake', hdrop']
    cases htake : cs.takeWhile isSchemeChar with
    | nil => rw [htake] at h; cases h
    | cons first others =>
      rw [htake] at h
      dsimp only at h ⊢
      split at h
      case isTrue ha =>
        cases h
        exact if_pos ha
      case isFalse => cases h

/-- The URL of a host that was found behind a name and a password. -/
def named (scheme : String) (before : List Char) (found : Host × Option Nat) : Except Invalid Url :=
  if found.1.isNameless && (!(credentials before).1.isEmpty || (credentials before).2.isSome) then
    .error .emptyHost
  else
    .ok {
      scheme
      username := (credentials before).1
      password := (credentials before).2
      host := some found.1
      port := found.2 }

section Hosts

variable [Names]

/-- In a special scheme it makes no difference what comes after an authority: one that names no host
is refused either way. -/
theorem authority?_eq (scheme : String) (site tail : List Char) :
    authority? scheme true site tail =
      match splitAtLast '@' site with
      | none => (hostAndPort scheme true site).map fun (host, port) =>
          { scheme, host := some host, port }
      | some (before, after) => (hostAndPort scheme true after).bind (named scheme before) := by
  unfold authority?
  cases splitAtLast '@' site with
  | none => cases hostAndPort scheme true site <;> rfl
  | some parts =>
    obtain ⟨before, after⟩ := parts
    dsimp only
    cases after with
    | nil =>
      have hnone : hostAndPort scheme true [] = .error .emptyHost := rfl
      rw [hnone]
      split <;> rfl
    | cons c after =>
      rw [if_neg (by simp)]
      cases hostAndPort scheme true (c :: after) with
      | error e => rfl
      | ok found =>
        simp only [named, bind, Except.bind]
        split <;> rfl

theorem authority?_scheme {scheme : String} {special : Bool} {site tail : List Char} {u : Url}
    (h : authority? scheme special site tail = .ok u) : u.scheme = scheme := by
  unfold authority? at h
  split at h
  case h_1 =>
    obtain ⟨found, -, h⟩ := ok_of_bind h
    cases h
    rfl
  case h_2 =>
    dsimp only at h
    split at h
    case isTrue => cases h
    case isFalse =>
      obtain ⟨found, -, h⟩ := ok_of_bind h
      split at h
      case isTrue => cases h
      case isFalse => cases h; rfl

theorem fromAuthority_scheme {scheme : String} {special : Bool} {cs : List Char} {u : Url}
    (h : fromAuthority scheme special cs = .ok u) : u.scheme = scheme := by
  obtain ⟨v, hv, h⟩ := ok_of_bind h
  cases h
  show v.scheme = scheme
  exact authority?_scheme hv

theorem ofFile_scheme {cs : List Char} {u : Url} (h : ofFile cs = .ok u) : u.scheme = "file" := by
  have hat : ∀ host rest, (fileAt host rest).scheme = "file" := by
    intro host rest
    unfold fileAt
    dsimp only
    split <;> rfl
  unfold ofFile at h
  split at h
  case h_2 => cases h; apply hat
  case h_1 =>
    dsimp only at h
    split at h
    case isTrue => cases h; apply hat
    case isFalse =>
      split at h
      case isTrue => cases h; apply hat
      case isFalse =>
        obtain ⟨host, -, rfl⟩ := ok_of_map h
        apply hat

theorem exists_scheme {s : String} {u : Url} (h : parse s = .ok u) :
    ∃ rest, scheme? (significant s.toList) = some (u.scheme, rest) := by
  unfold parse at h
  split at h
  case h_1 => cases h
  case h_2 scheme rest hscheme =>
    have hu : u.scheme = scheme := by
      split at h
      case isTrue hf => exact (ofFile_scheme h).trans hf.symm
      case isFalse =>
        split at h
        case isTrue => exact fromAuthority_scheme h
        case isFalse =>
          split at h
          case h_1 => exact fromAuthority_scheme h
          case h_2 => cases h; rfl
    exact ⟨rest, hu ▸ hscheme⟩

/-! ## Cuts -/

/-- The schemes of web addresses. -/
def IsWeb (scheme : String) : Prop := scheme = "http" ∨ scheme = "https"

/-- A text is cut into its scheme, its authority and what comes after that. -/
structure Cut (cs : List Char) (scheme : String) (site tail : List Char) : Prop where
  scheme : ∃ rest, scheme? cs = some (scheme, rest) ∧ rest.dropWhile (isSlash true) = site ++ tail
  site : ∀ c ∈ site, (!endsAuthority true c) = true
  tail : Stops (!endsAuthority true ·) tail

/-- The URL of an authority and what comes after it. -/
def compose (scheme : String) (site tail : List Char) : Except Invalid Url :=
  (authority? scheme true site []).map (·.withRest true (pathOf true) tail)

theorem Cut.parse {s scheme : String} {site tail : List Char}
    (h : Cut (significant s.toList) scheme site tail) (hs : IsWeb scheme) :
    Url.parse s = compose scheme site tail := by
  obtain ⟨rest, hscheme, hrest⟩ := h.scheme
  have hspan := Text.span_append h.site h.tail
  rw [List.span_eq_takeWhile_dropWhile, Prod.mk.injEq] at hspan
  have hread : Url.parse s = fromAuthority scheme true (site ++ tail) := by
    unfold Url.parse
    rw [hscheme]
    rcases hs with rfl | rfl <;> simp [hrest, defaultPort?]
  rw [hread, fromAuthority, hspan.1, hspan.2, compose, authority?_eq, ← authority?_eq scheme site []]
  cases authority? scheme true site [] <;> rfl

/-- Every web address is cut, and it names a host. -/
theorem exists_cut {s : String} {u : Url} (h : parse s = .ok u) (hu : IsWeb u.scheme) :
    ∃ site tail, Cut (significant s.toList) u.scheme site tail ∧ site ≠ [] ∧
      compose u.scheme site tail = .ok u := by
  obtain ⟨rest, hscheme⟩ := exists_scheme h
  have hcut : Cut (significant s.toList) u.scheme
      ((rest.dropWhile (isSlash true)).takeWhile (!endsAuthority true ·))
      ((rest.dropWhile (isSlash true)).dropWhile (!endsAuthority true ·)) := by
    refine ⟨⟨rest, hscheme, (List.takeWhile_append_dropWhile ..).symm⟩, ?_, ?_⟩
    · intro c hc
      exact @List.mem_takeWhile_imp _ (!endsAuthority true ·) _ _ hc
    · intro c hc
      have hhead := List.head?_dropWhile_not (!endsAuthority true ·) (rest.dropWhile (isSlash true))
      rw [hc] at hhead
      simpa using hhead
  have hparse := (hcut.parse hu).symm.trans h
  refine ⟨_, _, hcut, ?_, hparse⟩
  intro hnil
  rw [hnil] at hparse
  cases hparse

end Hosts

variable {cs site tail : List Char} {scheme : String}

theorem scheme?_suffix {rest : List Char} (h : scheme? cs = some (scheme, rest)) : rest <:+ cs := by
  unfold scheme? at h
  split at h
  case h_2 => cases h
  case h_1 left hdrop =>
    have hrest : left = rest := by
      split at h
      case h_1 => cases h
      case h_2 =>
        split at h <;> cases h
        rfl
    rw [← hrest]
    exact (List.suffix_cons _ _).trans (hdrop ▸ List.dropWhile_suffix _)

theorem Cut.suffix (h : Cut cs scheme site tail) : tail <:+ cs := by
  obtain ⟨rest, hscheme, hrest⟩ := h.scheme
  have htail : tail <:+ rest.dropWhile (isSlash true) := hrest ▸ List.suffix_append site tail
  exact htail.trans ((List.dropWhile_suffix _).trans (scheme?_suffix hscheme))

/-- What is written behind a text that goes on after its authority leaves the authority as it is. -/
theorem Cut.append (h : Cut cs scheme site tail) (hs : site ≠ []) (ht : tail ≠ []) (more : List Char) :
    Cut (cs ++ more) scheme site (tail ++ more) := by
  obtain ⟨rest, hscheme, hrest⟩ := h.scheme
  refine ⟨⟨rest ++ more, scheme?_append hscheme more, ?_⟩, h.site, ?_⟩
  · obtain ⟨c, left, hleft⟩ := List.exists_cons_of_ne_nil hs
    rw [hleft] at hrest ⊢
    rw [(Text.stretch_append hrest more).2]
    simp
  · obtain ⟨c, left, rfl⟩ := List.exists_cons_of_ne_nil ht
    exact Stops.cons _ (h.tail c rfl)

/-- What is written behind an authority belongs to it up to the next slash. -/
theorem Cut.append_bare (h : Cut cs scheme site []) (hs : site ≠ []) {blanks : List Char}
    (hb : ∀ c ∈ blanks, (!endsAuthority true c) = true) (path : List Char) :
    Cut (cs ++ blanks ++ '/' :: path) scheme (site ++ blanks) ('/' :: path) := by
  obtain ⟨rest, hscheme, hrest⟩ := h.scheme
  rw [List.append_assoc]
  refine ⟨⟨_, scheme?_append hscheme _, ?_⟩, ?_, Stops.cons _ (by decide)⟩
  · obtain ⟨c, left, hleft⟩ := List.exists_cons_of_ne_nil hs
    rw [hleft] at hrest ⊢
    rw [(Text.stretch_append hrest _).2]
    simp
  · intro c hc
    rcases List.mem_append.1 hc with hc | hc
    · exact h.site c hc
    · exact hb c hc

end LunchRush.Url
