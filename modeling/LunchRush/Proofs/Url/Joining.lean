import LunchRush.Proofs.Url.Blank
import LunchRush.Proofs.Url.Segments
/-!
# A path written behind a URL

A path that is written behind the text of a web address leaves it at the same host and port, or makes
it no address at all (`site_of_parse`). Where the text ends in its path, what is written behind it
comes below that path (`parse_below`).
-/

namespace LunchRush

namespace Url

/-- A text without the slashes at its end. -/
def trimmed (cs : List Char) : List Char := (cs.reverse.dropWhile (· == '/')).reverse

/-- The path without the slashes at its end. -/
def stem (u : Url) : String := String.ofList (trimmed u.path.text.toList)

/-! ## The same site -/

variable {s scheme : String} {site tail : List Char} {u : Url}

section Site

variable [Names]

theorem compose_rest (h : compose scheme site tail = .ok u) (other : List Char) :
    compose scheme site other = .ok (u.withRest true (pathOf true) other) := by
  obtain ⟨found, hfound, rfl⟩ := ok_of_map h
  rw [compose, hfound]
  rfl

/-- Where something comes after the authority, or no blanks after it, a path that is written behind
the text only adds to what comes after the authority. -/
theorem Cut.parse_append (h : Cut (significant s.toList) scheme site tail) (hs : IsWeb scheme)
    (hsite : site ≠ []) (hu : compose scheme site tail = .ok u)
    (hb : tail = [] → ending s.toList = []) (path : List Char) :
    Url.parse (s ++ String.ofList ('/' :: path)) =
      .ok (u.withRest true (pathOf true) (tail ++ ending s.toList ++ '/' :: kept path)) := by
  have htext : (s ++ String.ofList ('/' :: path)).toList = s.toList ++ '/' :: path := by
    rw [String.toList_append, String.toList_ofList]
  have hcut : Cut (significant (s ++ String.ofList ('/' :: path)).toList) scheme site
      (tail ++ ending s.toList ++ '/' :: kept path) := by
    rw [htext, significant_append]
    cases tail with
    | nil =>
      have hjoin := h.append_bare hsite (fun c hc => absurd hc List.not_mem_nil) (kept path)
      rw [hb rfl]
      simpa using hjoin
    | cons c tail =>
      have hjoin := h.append hsite (List.cons_ne_nil _ _) (ending s.toList ++ '/' :: kept path)
      simpa using hjoin
  rw [hcut.parse hs]
  exact compose_rest hu _

theorem Cut.parse_blank (h : Cut (significant s.toList) scheme site []) (hs : IsWeb scheme)
    (hsite : site ≠ []) (hb : ending s.toList ≠ []) (path : List Char) (v : Url) :
    Url.parse (s ++ String.ofList ('/' :: path)) ≠ .ok v := by
  have hblanks : Blanks (ending s.toList) := ⟨hb, fun c hc => isMargin_of_mem_ending hc⟩
  have hends : ∀ c ∈ ending s.toList, (!endsAuthority true c) = true := by
    intro c hc
    simp only [endsAuthority, Bool.not_eq_true', Bool.or_eq_false_iff, beq_eq_false_iff_ne,
      Bool.true_and]
    exact ⟨⟨⟨hblanks.ne hc (by decide), hblanks.ne hc (by decide)⟩, hblanks.ne hc (by decide)⟩,
      hblanks.ne hc (by decide)⟩
  have hcut := h.append_bare hsite hends (kept path)
  rw [← significant_append, ← String.toList_ofList (l := '/' :: path), ← String.toList_append] at hcut
  rw [hcut.parse hs]
  exact compose_blank hblanks scheme site _ v

/-- Whatever path is written behind a web address, what is read is at the same site. -/
theorem site_of_parse {v : Url} (h : parse s = .ok u) (hu : IsWeb u.scheme) {path : List Char}
    (hv : parse (s ++ String.ofList ('/' :: path)) = .ok v) :
    v.scheme = u.scheme ∧ v.host = u.host ∧ v.port = u.port := by
  obtain ⟨site, tail, hcut, hsite, hc⟩ := exists_cut h hu
  by_cases hb : tail = [] → ending s.toList = []
  · rw [hcut.parse_append hu hsite hc hb] at hv
    cases hv
    exact ⟨rfl, rfl, rfl⟩
  · rw [Classical.not_imp] at hb
    obtain ⟨rfl, hb⟩ := hb
    exact absurd hv (hcut.parse_blank hu hsite hb path v)

/-- Nothing that is written behind a URL changes its scheme. -/
theorem scheme_of_parse {v : Url} (h : parse s = .ok u) {path : List Char}
    (hv : parse (s ++ String.ofList ('/' :: path)) = .ok v) : v.scheme = u.scheme := by
  obtain ⟨rest, hrest⟩ := exists_scheme h
  obtain ⟨left, hleft⟩ := exists_scheme hv
  rw [String.toList_append, String.toList_ofList, significant_append, List.append_assoc,
    scheme?_append hrest, Option.some.injEq, Prod.mk.injEq] at hleft
  exact hleft.1.symm

theorem exists_parse (h : parse s = .ok u) (hu : IsWeb u.scheme)
    (hend : ∀ c, s.toList.getLast? = some c → isMargin c = false) (path : List Char) :
    ∃ v, parse (s ++ String.ofList ('/' :: path)) = .ok v := by
  obtain ⟨site, tail, hcut, hsite, hc⟩ := exists_cut h hu
  exact ⟨_, hcut.parse_append hu hsite hc (fun _ => ending_eq_nil hend) path⟩

end Site

/-! ## Below a path -/

theorem withRest_plain (u : Url) (special : Bool) (read : List Char → Path) {rest : List Char}
    (hr : ∀ c ∈ rest, (!endsPath c) = true) :
    u.withRest special read rest = { u with path := read rest, query := none, fragment := none } := by
  have htake : rest.takeWhile (!endsPath ·) = rest := List.takeWhile_eq_self_iff.2 hr
  have hdrop : rest.dropWhile (!endsPath ·) = [] := List.dropWhile_eq_nil_iff.2 hr
  rw [withRest, htake, hdrop]
  rfl

/-- Where there is neither query nor fragment, all that comes after the authority is path. -/
theorem plain_of_withRest {special : Bool} {read : List Char → Path} {rest : List Char}
    (hq : (u.withRest special read rest).query = none)
    (hf : (u.withRest special read rest).fragment = none) : ∀ c ∈ rest, (!endsPath c) = true := by
  apply List.dropWhile_eq_nil_iff.1
  cases hdrop : rest.dropWhile (!endsPath ·) with
  | nil => rfl
  | cons c more =>
    exfalso
    have hc : endsPath c = true := by
      have hhead := List.head?_dropWhile_not (!endsPath ·) rest
      rw [hdrop] at hhead
      simpa using hhead
    rw [withRest, hdrop] at hq hf
    simp only [endsPath, Bool.or_eq_true, beq_iff_eq] at hc
    rcases hc with rfl | rfl
    · cases hq
    · cases hf

theorem withRest_path (u : Url) (special : Bool) (read : List Char → Path) (rest : List Char) :
    (u.withRest special read rest).path = read (rest.takeWhile (!endsPath ·)) := rfl

/-- A query or a fragment takes in whatever is written behind it. -/
theorem path_of_parse [Names] {v : Url} (h : parse s = .ok u) (hu : IsWeb u.scheme)
    (hmark : u.query ≠ none ∨ u.fragment ≠ none) {path : List Char}
    (hv : parse (s ++ String.ofList ('/' :: path)) = .ok v) : v.path = u.path := by
  obtain ⟨site, tail, hcut, hsite, hc⟩ := exists_cut h hu
  have hself : u = u.withRest true (pathOf true) tail :=
    Except.ok.inj (hc.symm.trans (compose_rest hc tail))
  cases hdrop : tail.dropWhile (!endsPath ·) with
  | nil =>
    rw [withRest_plain _ _ _ (List.dropWhile_eq_nil_iff.1 hdrop)] at hself
    rw [hself] at hmark
    rcases hmark with hmark | hmark
    · exact absurd rfl hmark
    · exact absurd rfl hmark
  | cons mark rest =>
    have hsome : tail ≠ [] := by
      rintro rfl
      cases hdrop
    rw [hcut.parse_append hu hsite hc (absurd · hsome), List.append_assoc] at hv
    cases hv
    rw [withRest_path, (Text.stretch_append hdrop _).1, ← withRest_path u true (pathOf true) tail,
      ← hself]

theorem text_segments (names : List (List Char)) :
    (Path.segments (names.map String.ofList)).text.toList = names.flatMap ('/' :: ·) := by
  simp [Path.text, String.toList_join, List.flatMap_map]

theorem percentByte_slash (b : UInt8) : '/' ∉ percentByte b := by
  have hdigit : ∀ n < 16, (if n < 10 then Char.ofNat (48 + n) else Char.ofNat (55 + n)) ≠ '/' := by
    decide
  have hb := b.toNat_lt
  unfold percentByte
  simp only [List.mem_cons, List.not_mem_nil, or_false, not_or]
  exact ⟨by decide, (hdigit _ (by omega)).symm, (hdigit _ (by omega)).symm⟩

/-- A character other than a slash is written without slashes. -/
theorem percentEncode_concat {c : Char} (hc : c ≠ '/') (cs : List Char) :
    ∃ front last, percentEncode inPath (cs ++ [c]) = front ++ [last] ∧ last ≠ '/' := by
  have hone : percentEncode inPath [c] ≠ [] ∧ '/' ∉ percentEncode inPath [c] := by
    rw [percentEncode, List.flatMap_singleton]
    split
    case isFalse => exact ⟨List.cons_ne_nil _ _, by simpa using hc.symm⟩
    case isTrue =>
      rw [percentChar, Text.utf8_singleton]
      constructor
      · obtain ⟨b, more, hb⟩ := List.exists_cons_of_ne_nil (Text.utf8_ne_nil c)
        rw [hb]
        exact List.cons_ne_nil _ _
      · intro h
        obtain ⟨b, -, hb⟩ := List.mem_flatMap.1 h
        exact percentByte_slash b hb
  obtain ⟨front, last, hlast⟩ := (List.eq_nil_or_concat _).resolve_left hone.1
  rw [List.concat_eq_append] at hlast
  refine ⟨percentEncode inPath cs ++ front, last, ?_, ?_⟩
  · rw [percentEncode, List.flatMap_append, ← percentEncode, ← percentEncode, hlast, List.append_assoc]
  · rintro rfl
    exact hone.2 (hlast ▸ by simp)

theorem trimmed_eq {cs : List Char} (h : ∀ c, cs.getLast? = some c → c ≠ '/') :
    trimmed cs = cs ∧ trimmed (cs ++ ['/']) = cs := by
  have hcs : trimmed cs = cs := by
    rcases List.eq_nil_or_concat cs with rfl | ⟨front, c, rfl⟩
    · rfl
    · have hc := h c (by simp)
      simp [trimmed, hc]
  refine ⟨hcs, ?_⟩
  rw [trimmed, List.reverse_append, List.reverse_singleton, List.singleton_append,
    List.dropWhile_cons_of_pos (by decide)]
  exact hcs

theorem segments_ne_nil (special : Bool) (cs : List Char) : segments special cs ≠ [] :=
  splitOn_ne_nil '/' _

theorem segments_append (cs more : List Char) :
    segments true (cs ++ '/' :: more) = segments true cs ++ segments true more := by
  unfold segments
  rw [List.map_append, List.map_cons]
  exact splitOn_append '/' _ _

theorem segments_simple {path : List Char} (h : IsSimple path) :
    segments true path = splitOn '/' path := by
  unfold segments
  congr 1
  calc path.map (fun c => if isSlash true c then '/' else c)
    _ = path.map id := List.map_congr_left fun c hc => by
      split
      case isFalse => rfl
      case isTrue hs =>
        simp only [isSlash, Bool.true_and, Bool.or_eq_true, beq_iff_eq] at hs
        rcases hs with rfl | rfl
        · rfl
        · rcases h _ hc with hc | hc <;> cases hc
    _ = path := List.map_id _

/-- A path that is written behind another one comes below it. -/
theorem pathOf_append {tail path : List Char} (htail : Text.Stops (!endsAuthority true ·) tail)
    (hplain : ∀ c ∈ tail, (!endsPath c) = true)
    (hlast : ∀ c, tail.getLast? = some c → isSlash true c = false)
    (hdouble : ¬ ['/', '/'] <:+ (pathOf true tail).text.toList) (hpath : IsSimple path) :
    (pathOf true (tail ++ '/' :: path)).text.toList =
      trimmed (pathOf true tail).text.toList ++ '/' :: path := by
  have hbelow : ∀ done : List (List Char),
      (Path.segments ((resolve done (segments true path)).map String.ofList)).text.toList =
        done.reverse.flatMap ('/' :: ·) ++ '/' :: path := by
    intro done
    rw [text_segments, segments_simple hpath, resolve_simple hpath, List.flatMap_append,
      splitOn_flatMap]
  cases tail with
  | nil => exact hbelow []
  | cons c tail =>
    have hc : isSlash true c = true := by
      have hends := htail c rfl
      have hstays := hplain c List.mem_cons_self
      simp only [endsAuthority, endsPath, isSlash] at hends hstays ⊢
      grind
    obtain ⟨front, d, rfl⟩ : ∃ front d, tail = front ++ [d] := by
      rcases List.eq_nil_or_concat tail with rfl | ⟨front, d, rfl⟩
      · rw [hlast c rfl] at hc
        cases hc
      · exact ⟨front, d, List.concat_eq_append⟩
    have hd : isSlash true d = false := by
      apply hlast
      rw [← List.cons_append]
      exact List.getLast?_concat
    have hne : d ≠ '/' := by
      rintro rfl
      cases hd
    obtain ⟨parts, part, hparts⟩ : ∃ parts part,
        segments true (front ++ [d]) = parts ++ [part ++ [d]] := by
      simp only [segments, List.map_append, List.map_cons, List.map_nil, hd, Bool.false_eq_true,
        if_false]
      exact splitOn_concat hne _
    have hread : ∀ cs, pathOf true (c :: cs) = .segments ((resolve [] (segments true cs)).map
        String.ofList) := by
      intro cs
      rw [pathOf, if_pos hc, Path.ofWritten]
    rw [List.cons_append, hread, segments_append, resolve_append (segments_ne_nil _ _), hbelow]
    congr 1
    rw [hread, hparts, resolve_append (List.cons_ne_nil _ _), text_segments] at hdouble ⊢
    rw [List.foldl_append, List.foldl_cons, List.foldl_nil]
    rcases resolve_last (parts.foldl stepIn []) (part ++ [d]) with hdots | ⟨hdone, hnone⟩
    -- dots at the end leave an empty segment, and what they leave before it ends in no slash
    · rw [hdots, List.flatMap_append] at hdouble ⊢
      refine (trimmed_eq ?_).2.symm
      rintro last hend rfl
      obtain ⟨before, hbefore⟩ := List.getLast?_eq_some_iff.1 hend
      apply hdouble
      rw [hbefore]
      exact ⟨before, by simp⟩
    · obtain ⟨before, last, hencoded, hslash⟩ := percentEncode_concat hne part
      rw [hnone, hdone]
      refine (trimmed_eq ?_).1.symm
      intro c hend
      rw [List.reverse_cons, List.flatMap_append, hencoded, List.flatMap_singleton, ← List.cons_append,
        ← List.append_assoc, List.getLast?_concat] at hend
      cases hend
      exact hslash

theorem kept_simple {path : List Char} (h : IsSimple path) : kept path = path := by
  have hmargin : ∀ c ∈ path, isMargin c = false := by
    intro c hc
    rcases h c hc with hc | rfl
    · have hlow := (alphanum_bounds hc).1
      simp only [isMargin, decide_eq_false_iff_not]
      omega
    · rfl
  have hdrop : path.reverse.dropWhile isMargin = path.reverse := by
    cases hrev : path.reverse with
    | nil => rfl
    | cons c more =>
      have hc := hmargin c (List.mem_reverse.1 (hrev ▸ List.mem_cons_self))
      rw [List.dropWhile_cons, hc]
      rfl
  rw [kept, hdrop, List.reverse_reverse, List.filter_eq_self]
  intro c hc
  have hc' := hmargin c hc
  simp only [isKept, Bool.and_eq_true, bne_iff_ne]
  refine ⟨⟨?_, ?_⟩, ?_⟩ <;> rintro rfl <;> cases hc'

/-- A text that ends in the path of its URL and not in a slash: a path that is written behind it comes
below that path. -/
theorem parse_below [Names] (h : parse s = .ok u) (hu : IsWeb u.scheme) (hq : u.query = none)
    (hf : u.fragment = none)
    (hend : ∀ c, s.toList.getLast? = some c → isMargin c = false ∧ isSlash true c = false)
    (hdouble : ¬ ['/', '/'] <:+ u.path.text.toList) {path : List Char} (hpath : IsSimple path) :
    ∃ p : Path, p.text = u.stem ++ String.ofList ('/' :: path) ∧
      parse (s ++ String.ofList ('/' :: path)) = .ok { u with path := p } := by
  obtain ⟨site, tail, hcut, hsite, hc⟩ := exists_cut h hu
  have hself : u = u.withRest true (pathOf true) tail :=
    Except.ok.inj (hc.symm.trans (compose_rest hc tail))
  have hplain : ∀ c ∈ tail, (!endsPath c) = true :=
    plain_of_withRest (hself ▸ hq) (hself ▸ hf)
  have hread : u.path = pathOf true tail := by
    rw [hself, withRest_plain _ _ _ hplain]
  have hnone : ending s.toList = [] := ending_eq_nil fun c hlast => (hend c hlast).1
  have hlast : ∀ c, tail.getLast? = some c → isSlash true c = false := by
    intro c hc
    obtain ⟨front, hfront⟩ := hcut.suffix
    have hsignificant : (significant s.toList).getLast? = some c := by
      rw [← hfront, List.getLast?_append, hc]
      rfl
    cases hs : s.toList.getLast? with
    | none =>
      rw [List.getLast?_eq_none_iff.1 hs] at hsignificant
      cases hsignificant
    | some d =>
      rw [significant_getLast? hs (hend d hs).1, Option.some.injEq] at hsignificant
      exact hsignificant ▸ (hend d hs).2
  have hbelow : ∀ c ∈ tail ++ '/' :: path, (!endsPath c) = true := by
    intro c hc
    rcases List.mem_append.1 hc with hc | hc
    · exact hplain c hc
    · rcases List.mem_cons.1 hc with rfl | hc
      · rfl
      · rcases hpath c hc with hc | rfl
        · rw [Bool.not_eq_true', endsPath, Bool.or_eq_false_iff]
          constructor <;> rw [beq_eq_false_iff_ne] <;> rintro rfl <;> cases hc
        · rfl
  refine ⟨pathOf true (tail ++ '/' :: path), ?_, ?_⟩
  · rw [← String.toList_inj, pathOf_append hcut.tail hplain hlast (hread ▸ hdouble) hpath, stem, hread]
    simp
  · rw [hcut.parse_append hu hsite hc (fun _ => hnone) path, hnone, List.append_nil, kept_simple hpath,
      withRest_plain _ _ _ hbelow, hq, hf]

end Url

end LunchRush
