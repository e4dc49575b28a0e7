import LunchRush.Files.Store
import LunchRush.Proofs.Files.Directories
/-!
# What saving does to the files

`save_saves` sums up `Store.save`: directories are made, then a draft is written, and the draft
either takes the place of the document or is removed. So a save that fails leaves the document as
it was (`Saves.document`), and one that succeeds leaves the new text under the path
(`Saves.read`). After one save that succeeded the next one does (`save_again`).
-/

namespace LunchRush

open FileTree

/-- The bytes of the document, if the path leads to a file. -/
def Store.document? (s : Store) (files : FileTree) : Option ByteArray := (files.read s.path).toOption

/-- The files before and after `bytes` were to be saved, and whether they were. -/
inductive Saves (s : Store) (bytes : ByteArray) (files : FileTree) : Bool → FileTree → Prop
  /-- A directory could not be made, or the draft could not be written. -/
  | unwritten {made : FileTree} : AddsDirectories files made → (files.Rooted → made.Rooted) →
      Saves s bytes files false made
  /-- The draft could not be moved, and was removed. -/
  | unmoved {made : FileTree} {draft : Location} : AddsDirectories files made →
      (files.Rooted → made.Rooted) → made.Finds s.draft draft → made.get? draft ≠ some .directory →
      Saves s bytes files false (made.erase draft)
  /-- The draft was moved. -/
  | moved {made : FileTree} {draft place : Location} : AddsDirectories files made →
      (files.Rooted → made.Rooted) → made.Finds s.draft draft → made.get? draft ≠ some .directory →
      made.Finds s.path place → made.get? place ≠ some .directory →
      Saves s bytes files true ((made.erase draft).put place (.file bytes))

namespace Store

theorem makeParent_adds (s : Store) (files : FileTree) :
    AddsDirectories files (s.makeParent files).2 ∧ (files.Rooted → (s.makeParent files).2.Rooted) := by
  unfold makeParent
  split
  · exact ⟨.refl files, id⟩
  · rename_i parent _
    have ha := makeDirectories_adds (parent.length + 1) files parent
    have hr := fun h : files.Rooted => h.makeDirectories (parent.length + 1) parent
    split
    · rename_i hm; rw [hm] at ha hr; exact ⟨ha, hr⟩
    · rename_i hm; rw [hm] at ha hr; exact ⟨ha, hr⟩

/-- A file changes no directory where none stood. -/
theorem keeps_put {t : FileTree} {location : Location} (hl : location ≠ [])
    (hg : t.get? location ≠ some .directory) (entry : Entry) :
    KeepsDirectories t (t.put location entry) := by
  intro other ho
  rw [get?_put hl, if_neg]
  · exact ho
  · rintro rfl; exact hg ho

/-- A file makes no directory. -/
theorem put_keeps {t : FileTree} {location : Location} (hl : location ≠ []) (bytes : ByteArray) :
    KeepsDirectories (t.put location (.file bytes)) t := by
  intro other ho
  rw [get?_put hl] at ho
  split at ho
  · cases ho
  · exact ho

theorem keeps_erase {t : FileTree} {location : Location} (hl : location ≠ [])
    (hg : t.get? location ≠ some .directory) : KeepsDirectories t (t.erase location) := by
  intro other ho
  rw [get?_erase hl, if_neg]
  · exact ho
  · rintro rfl; exact hg ho

theorem erase_no_directory {t : FileTree} {location other : Location} (hl : location ≠ [])
    (hg : t.get? other ≠ some .directory) : (t.erase location).get? other ≠ some .directory := by
  rw [get?_erase hl]
  split
  · simp
  · exact hg

/-- Where the draft stands among the files, publishing moves it or removes it. -/
theorem publish_of_draft {s : Store} {made : FileTree} {draft : Location} (bytes : ByteArray)
    (hf : made.Finds s.draft draft) (hg : made.get? draft ≠ some .directory) :
    ((s.publish (made.put draft (.file bytes))).1 = .ok () ∧ ∃ place, made.Finds s.path place ∧
        made.get? place ≠ some .directory ∧ (s.publish (made.put draft (.file bytes))).2 =
          (made.erase draft).put place (.file bytes)) ∨
      ((∃ e, (s.publish (made.put draft (.file bytes))).1 = .error (.io s.path e)) ∧
        (s.publish (made.put draft (.file bytes))).2 = made.erase draft) := by
  have hk := keeps_put hf.ne_nil hg (.file bytes)
  have hf' := hf.mono hk
  have hnew : (made.put draft (.file bytes)).get? draft = some (.file bytes) := by
    rw [get?_put hf.ne_nil, if_pos rfl]
  unfold publish
  split
  · rename_i moved hm
    obtain ⟨old, place, content, hold, hc, hplace, hd, rfl⟩ := rename_eq_ok (served_eq_ok hm)
    -- the file that is moved is the draft, and the document is another one
    have hsame : old = draft := hold.unique hf'
    subst hsame
    have hne : place ≠ old := finds_besides_ne (by decide) (by decide) hplace hold
    rw [hnew] at hc
    cases hc
    rw [get?_put hf.ne_nil, if_neg hne] at hd
    exact .inl ⟨rfl, place, hplace.mono (put_keeps hold.ne_nil bytes), hd, by rw [erase_put]⟩
  · rename_i e kept he
    obtain rfl := (served_eq_error he).2
    refine .inr ⟨⟨e, rfl⟩, ?_⟩
    show (FileTree.served _ (FileTree.remove _ s.draft)).2 = made.erase draft
    rw [remove_of_finds hf' hnew, erase_put]
    rfl

/-- How a save can go: it stops before there is a draft, or the draft is removed or moved. -/
theorem save_cases (s : Store) (d : Document) (files : FileTree) :
    (∃ e made, AddsDirectories files made ∧ (files.Rooted → made.Rooted) ∧
      s.save d files = (.error e, made)) ∨
    ∃ made draft, s.makeParent files = (.ok (), made) ∧ made.Finds s.draft draft ∧
      made.get? draft ≠ some .directory ∧
      ((∃ e, s.save d files = (.error e, made.erase draft)) ∨
        ∃ place, made.Finds s.path place ∧ made.get? place ≠ some .directory ∧
          s.save d files = (.ok [.documentSaved s.path d.restaurants.length],
            (made.erase draft).put place (.file d.toYaml.toUTF8))) := by
  obtain ⟨ha, hr⟩ := s.makeParent_adds files
  unfold save
  split
  · rename_i e made hm
    rw [hm] at ha hr
    exact .inl ⟨e, made, ha, hr, rfl⟩
  · rename_i made hm
    rw [hm] at ha hr
    unfold writeDraft
    split
    · rename_i hw
      split at hw
      · cases hw
      · rename_i kept hdraft
        cases hw
        obtain rfl := writeAndSync_eq_error hdraft
        exact .inl ⟨_, _, ha, hr, rfl⟩
    · rename_i written hw
      split at hw
      case h_2 => cases hw
      rename_i hdraft
      cases hw
      obtain ⟨draft, hf, hg, rfl⟩ := writeAndSync_eq_ok hdraft
      refine .inr ⟨made, draft, hm, hf, hg, ?_⟩
      rcases publish_of_draft d.toYaml.toUTF8 hf hg with
        ⟨hok, place, hplace, hd, hfiles⟩ | ⟨⟨e, herr⟩, hfiles⟩
      · rw [show s.publish _ = (_, _) from Prod.ext hok hfiles]
        exact .inr ⟨place, hplace, hd, rfl⟩
      · rw [show s.publish _ = (_, _) from Prod.ext herr hfiles]
        exact .inl ⟨_, rfl⟩

theorem save_saves (s : Store) (d : Document) (files : FileTree) :
    Saves s d.toYaml.toUTF8 files (s.save d files).1.isOk (s.save d files).2 ∧
      ∀ events, (s.save d files).1 = .ok events →
        events = [.documentSaved s.path d.restaurants.length] := by
  rcases s.save_cases d files with
    ⟨e, made, ha, hr, hs⟩ | ⟨made, draft, hm, hf, hg, ⟨e, hs⟩ | ⟨place, hplace, hd, hs⟩⟩
  · rw [hs]
    exact ⟨.unwritten ha hr, nofun⟩
  all_goals
    obtain ⟨ha, hr⟩ := s.makeParent_adds files
    rw [hm] at ha hr
    rw [hs]
  · exact ⟨.unmoved ha hr hf hg, nofun⟩
  · exact ⟨.moved ha hr hf hg hplace hd, fun _ h => by cases h; rfl⟩

/-- A save that succeeds has made the parent, found the draft and the document, and moved the one to
the other. -/
theorem save_eq_ok {s : Store} {d : Document} {files files' : FileTree} {events : List Event}
    (h : s.save d files = (.ok events, files')) :
    ∃ made draft place, s.makeParent files = (.ok (), made) ∧ made.Finds s.draft draft ∧
      made.get? draft ≠ some .directory ∧ made.Finds s.path place ∧
      made.get? place ≠ some .directory ∧
      files' = (made.erase draft).put place (.file d.toYaml.toUTF8) := by
  rcases s.save_cases d files with
    ⟨e, made, -, -, hs⟩ | ⟨made, draft, hm, hf, hg, ⟨e, hs⟩ | ⟨place, hplace, hd, hs⟩⟩
  · rw [hs] at h
    cases h
  · rw [hs] at h
    cases h
  · rw [hs] at h
    cases h
    exact ⟨made, draft, place, hm, hf, hg, hplace, hd, rfl⟩

/-- A parent that was made is not made again. -/
theorem makeParent_again {s : Store} {files made t : FileTree}
    (h : s.makeParent files = (.ok (), made)) (hk : KeepsDirectories made t) :
    s.makeParent t = (.ok (), t) := by
  unfold makeParent at h ⊢
  split at h
  · rfl
  · rename_i parent hp
    have hne : parent.isEmpty = false := by simpa using (Option.filter_eq_some_iff.1 hp).2
    split at h
    · rename_i hm
      cases h
      have hd := isDirectory_mono hk (isDirectory_of_makeDirectories _ hne hm)
      rw [makeDirectories_of_isDirectory hd]
    · cases h

/-- A save succeeds where the parent can be made and neither the draft nor the document is a
directory. -/
theorem save_of_found {s : Store} {files made : FileTree} {draft place : Location}
    (hm : s.makeParent files = (.ok (), made)) (hf : made.Finds s.draft draft)
    (hg : made.get? draft ≠ some .directory) (hplace : made.Finds s.path place)
    (hd : made.get? place ≠ some .directory) (d : Document) :
    s.save d files = (.ok [.documentSaved s.path d.restaurants.length],
      (made.erase draft).put place (.file d.toYaml.toUTF8)) := by
  have hk := keeps_put hf.ne_nil hg (.file d.toYaml.toUTF8)
  have hne : place ≠ draft := finds_besides_ne (by decide) (by decide) hplace hf
  have hdraft : (made.put draft (.file d.toYaml.toUTF8)).get? draft = some (.file d.toYaml.toUTF8) := by
    rw [get?_put hf.ne_nil, if_pos rfl]
  have hdoc : (made.put draft (.file d.toYaml.toUTF8)).get? place ≠ some .directory := by
    rw [get?_put hf.ne_nil, if_neg hne]
    exact hd
  have hmoved : FileSystem.rename s.draft s.path (made.put draft (.file d.toYaml.toUTF8)) =
      (.ok (), (made.erase draft).put place (.file d.toYaml.toUTF8)) := by
    show FileTree.served _ (FileTree.rename _ s.draft s.path) = _
    rw [rename_of_finds (hf.mono hk) hdraft (hplace.mono hk) hdoc, erase_put]
    rfl
  unfold save writeDraft publish
  rw [hm]
  dsimp only
  rw [writeAndSync_of_finds hf hg]
  dsimp only
  rw [hmoved]

/-- After a save that succeeded the next one finds all that it needs. -/
theorem save_again {s : Store} {d : Document} {files files' : FileTree} {events : List Event}
    (h : s.save d files = (.ok events, files')) (next : Document) :
    ∃ files'', s.save next files' = (.ok [.documentSaved s.path next.restaurants.length], files'') := by
  obtain ⟨made, draft, place, hm, hf, hg, hplace, hd, rfl⟩ := save_eq_ok h
  have hk : KeepsDirectories made ((made.erase draft).put place (.file d.toYaml.toUTF8)) :=
    fun _ ho => keeps_put hplace.ne_nil (erase_no_directory hf.ne_nil hd) _ _
      (keeps_erase hf.ne_nil hg _ ho)
  have hne : place ≠ draft := finds_besides_ne (by decide) (by decide) hplace hf
  refine ⟨_, save_of_found (makeParent_again hm hk) (hf.mono hk) ?_ (hplace.mono hk) ?_ next⟩
  · rw [get?_put hplace.ne_nil, if_neg hne.symm, get?_erase hf.ne_nil, if_pos rfl]
    simp
  · rw [get?_put hplace.ne_nil, if_pos rfl]
    simp

theorem saves_of_error {s : Store} {d : Document} {files files' : FileTree} {e : StoreError}
    (h : s.save d files = (.error e, files')) : Saves s d.toYaml.toUTF8 files false files' := by
  have hs := (s.save_saves d files).1
  rw [h] at hs
  exact hs

theorem saves_of_ok {s : Store} {d : Document} {files files' : FileTree} {events : List Event}
    (h : s.save d files = (.ok events, files')) : Saves s d.toYaml.toUTF8 files true files' := by
  have hs := (s.save_saves d files).1
  rw [h] at hs
  exact hs

end Store

/-- What is found stands in a directory. -/
theorem FileTree.Finds.above {t : FileTree} (hr : t.Rooted) {path : String}
    {location : Location} (h : t.Finds path location) :
    ∃ directory name, location = directory ++ [name] ∧ t.get? directory = some .directory := by
  obtain ⟨directory, name, hends, rfl⟩ := h.ends
  obtain ⟨before, -, -, -, -, hw⟩ := hends.segments
  exact ⟨directory, name, rfl, hr.walk _ rfl hw⟩

namespace Saves

variable {s : Store} {bytes : ByteArray} {files files' : FileTree} {saved : Bool}

theorem rooted (h : Saves s bytes files saved files') (hr : files.Rooted) : files'.Rooted := by
  cases h with
  | unwritten _ hmade => exact hmade hr
  | unmoved _ hmade hf hg => exact (hmade hr).erase hf.ne_nil hg
  | moved _ hmade hf hg hplace hd =>
    have hme := (hmade hr).erase hf.ne_nil hg
    have hk := Store.keeps_erase hf.ne_nil hg
    obtain ⟨directory, name, rfl, habove⟩ := hplace.above (hmade hr)
    exact hme.put (hk _ habove) (.inr (Store.erase_no_directory hf.ne_nil hd))

/-- A save that succeeds leaves its text under the path. -/
theorem read (h : Saves s bytes files true files') : files'.read s.path = .ok bytes := by
  cases h with
  | moved _ _ hf hg hplace hd =>
    have hk := Store.keeps_erase hf.ne_nil hg
    have hk' := Store.keeps_put hplace.ne_nil (Store.erase_no_directory hf.ne_nil hd) (.file bytes)
    refine read_eq_ok_iff.2 ⟨_, (hplace.mono hk).mono hk', ?_⟩
    rw [get?_put hplace.ne_nil, if_pos rfl]

/-- A save that fails changes no file but the draft. -/
theorem keeps_file (h : Saves s bytes files false files') {location : Location}
    {content : ByteArray} (hg : files.get? location = some (.file content)) :
    files'.get? location = some (.file content) ∨ files'.Finds s.draft location := by
  cases h with
  | unwritten ha _ => exact .inl (ha.get? hg)
  | @unmoved made draft ha _ hf hd =>
    rw [get?_erase hf.ne_nil]
    split
    · rename_i he; subst he; exact .inr (hf.mono (Store.keeps_erase hf.ne_nil hd))
    · exact .inl (ha.get? hg)

theorem keeps_directories (h : Saves s bytes files false files') : KeepsDirectories files files' := by
  cases h with
  | unwritten ha _ => exact ha.keeps
  | unmoved ha _ hf hg => exact fun _ hd => Store.keeps_erase hf.ne_nil hg _ (ha.keeps _ hd)

/-- No file appears in a save that fails. -/
theorem file_before (h : Saves s bytes files false files') {location : Location}
    {content : ByteArray} (hg : files'.get? location = some (.file content)) :
    files.get? location = some (.file content) := by
  cases h with
  | unwritten ha _ => exact ha.file hg
  | unmoved ha _ hf _ =>
    rw [get?_erase hf.ne_nil] at hg
    split at hg
    · cases hg
    · exact ha.file hg

/-- A save that fails leaves the document as it was. Where the path goes up with `..` from a
directory that had to be made, the file that it leads to now was there before. -/
theorem document (h : Saves s bytes files false files') (hr : files.Rooted) :
    s.document? files' = s.document? files ∨
      (".." ∈ Path.segments s.path ∧ s.document? files = none ∧
        ∃ location content, files.get? location = some (.file content) ∧
          files'.Finds s.path location ∧ s.document? files' = some content) := by
  unfold Store.document?
  cases hb : files.read s.path with
  | ok content =>
    obtain ⟨location, hf, hg⟩ := read_eq_ok_iff.1 hb
    have hf' := hf.mono h.keeps_directories
    left
    rcases h.keeps_file hg with hg' | hdraft
    · rw [read_eq_ok_iff.2 ⟨location, hf', hg'⟩]
    · exact absurd rfl (finds_besides_ne (by decide) (by decide) hf' hdraft)
  | error e =>
    cases hb' : files'.read s.path with
    | error e' => exact .inl rfl
    | ok content =>
      obtain ⟨location, hf, hg⟩ := read_eq_ok_iff.1 hb'
      -- the file that is found now is not a new one
      have hbefore := h.file_before hg
      by_cases hup : ".." ∈ Path.segments s.path
      · exact .inr ⟨hup, rfl, location, content, hbefore, hf, rfl⟩
      · have hread := read_eq_ok_iff.2 ⟨location, hf.before hr hup (by rw [hbefore]; simp), hbefore⟩
        rw [hb] at hread
        cases hread

end Saves

end LunchRush
