import LunchRush.Proofs.Files.Saving
import LunchRush.Proofs.Wire.RoundTrip
/-!
# What was saved is loaded

The text of a document is the document again, and a store that has saved it loads the fixtures of it
that can be used, all of them in their order (`load_of_save`).
-/

namespace LunchRush

theorem fromUTF8?_toUTF8 (text : String) : String.fromUTF8? text.toUTF8 = some text := by
  have hvalid : text.toUTF8.IsValidUTF8 := text.isValidUTF8
  rw [String.fromUTF8?, dif_pos hvalid]
  rfl

theorem FileTree.readText_of_read {t : FileTree} {path text : String}
    (h : t.read path = .ok text.toUTF8) : t.readText path = .ok text := by
  simp only [readText, h, bind, Except.bind]
  rw [fromUTF8?_toUTF8]

/-- The text of a document starts with its key, so it is never taken for an empty document. -/
theorem Document.isBlank_toYaml (d : Document) : Text.isBlank d.toYaml = false := by
  have hkey : d.toYaml.toList = "restaurants".toList ++
      ':' :: Yaml.listValue Fixture.yamlChars d.restaurants := by
    rw [toYaml, String.toList_ofList, Yaml.listChars_eq]
    rfl
  rw [Text.isBlank, hkey, List.all_append]
  rfl

theorem Document.retainUsable_of_all {d : Document} (h : ∀ f ∈ d.restaurants, f.isUsable = true) :
    d.retainUsable = (d, 0) := by
  have husable : d.usable = d.restaurants := List.filter_eq_self.2 h
  rw [retainUsable, husable, Nat.sub_self]

namespace Store

/-- What is said when fixtures of a document are not loaded. -/
def loadEvents (s : Store) (d : Document) : List Event :=
  if 0 < d.retainUsable.2 then [.fixturesDropped s.path d.retainUsable.2] else []

theorem ofText_toYaml (s : Store) (d : Document) :
    s.ofText d.toYaml = .ok (d.retainUsable.1, s.loadEvents d) := by
  rw [ofText, d.isBlank_toYaml, d.ofYaml?_toYaml]
  rfl

theorem load_of_readText {s : Store} {files : FileTree} {text : String}
    (h : files.readText s.path = .ok text) : s.load files = s.ofText text := by
  rw [load, h]

/-- A document is what its text is read as. A store that has saved it finds that text, and loads the
usable fixtures of it in their order, which is the very document if all of them are usable. -/
theorem load_of_save (d : Document) : Document.ofYaml? d.toYaml = some d ∧
    ∀ (s : Store) (files files' : FileTree) (events : List Event), s.save d files = (.ok events, files') →
      files'.readText s.path = .ok d.toYaml ∧
      s.load files' = .ok (⟨d.restaurants.filter Fixture.isUsable⟩, s.loadEvents d) ∧
      ((∀ f ∈ d.restaurants, f.isUsable = true) → s.load files' = .ok (d, [])) := by
  refine ⟨d.ofYaml?_toYaml, fun s files files' events h => ?_⟩
  have htext := FileTree.readText_of_read (saves_of_ok h).read
  have hload := (load_of_readText htext).trans (s.ofText_toYaml d)
  refine ⟨htext, hload, fun husable => ?_⟩
  rw [hload, loadEvents, Document.retainUsable_of_all husable]
  rfl

/-- A document whose texts are written in each of the four ways, with a price of negative zero. -/
def awkward : Document :=
  ⟨[⟨⟨"no: 7"⟩, [⟨⟨"plain"⟩, "\n- # two\n  lines", "\x00\u0085 ", -0.0⟩]⟩]⟩

theorem load_of_save_awkward : (default.save awkward FileTree.empty).1 = .ok [.documentSaved default.path 1] ∧
    default.load (default.save awkward FileTree.empty).2 = .ok (awkward, []) := by
  have hsave : default.save awkward FileTree.empty =
      (.ok [.documentSaved default.path 1], (default.save awkward FileTree.empty).2) := rfl
  have husable : ∀ f ∈ awkward.restaurants, f.isUsable = true := by decide +kernel
  exact ⟨rfl, ((load_of_save awkward).2 default .empty _ _ hsave).2.2 husable⟩

end Store

end LunchRush
