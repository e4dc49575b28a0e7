import LunchRush.Files.Tree
import LunchRush.Log
import LunchRush.Wire.Document
import LunchRush.Wire.Read
/-!
# The store of fixtures

The document of fixtures lives in one file. Loading keeps the fixtures that can be used. Saving
writes a file beside the old one and then moves it there, so that the old document stays whole
until the new one is. It can be done in any system of files.
-/

namespace LunchRush

/-- Why the store failed. -/
inductive StoreError where
  | io (path : String) (error : FileError)
  | malformed (path reason : String)
  | unencodable (reason : String)
deriving DecidableEq, Repr

namespace StoreError

/-- What is said about it. -/
def message : StoreError → String
  | .io path error => s!"{path}: {error.message}"
  | .malformed path reason => s!"malformed fixture document {path}: {reason}"
  | .unencodable reason => s!"failed to encode fixture document: {reason}"

/-- What is said about its causes. -/
def causes : StoreError → List String
  | .io _ error => [error.message]
  | _ => []

end StoreError

/-- The file of a document. -/
structure Store where
  path : String
deriving DecidableEq, Repr

namespace Store

/-- The store that is used unless another one is named. -/
def default : Store := ⟨"config/seeded_data.yaml"⟩

/-- The file that a document is first written to. -/
def draft (s : Store) : String := Path.besides s.path ".tmp"

/-- The document of a text. A blank text is an empty document. -/
def ofText (s : Store) (text : String) : Except StoreError (Document × List Event) :=
  if Text.isBlank text then .ok (.empty, [])
  else
    match Document.ofYaml? text with
    | none => .error (.malformed s.path "the text is no document of fixtures")
    | some document =>
      let (document, dropped) := document.retainUsable
      .ok (document, if 0 < dropped then [.fixturesDropped s.path dropped] else [])

/-- Loads the document. A missing file is an empty document. -/
def load (s : Store) (files : FileTree) : Except StoreError (Document × List Event) :=
  match files.readText s.path with
  | .error .notFound => .ok (.empty, [.documentNotFound s.path])
  | .error e => .error (.io s.path e)
  | .ok text => s.ofText text

section Saving

variable {φ : Type} [FileSystem φ]

/-- Makes the directory that holds the document. -/
def makeParent (s : Store) (files : φ) : Except StoreError Unit × φ :=
  match (Path.parent? s.path).filter (!·.isEmpty) with
  | none => (.ok (), files)
  | some parent =>
    match FileSystem.makeDirectories (parent.length + 1) parent files with
    | (.ok (), files) => (.ok (), files)
    | (.error e, files) => (.error (.io parent e), files)

/-- Writes the draft. -/
def writeDraft (s : Store) (text : String) (files : φ) : Except StoreError Unit × φ :=
  match FileSystem.writeAndSync s.draft text.toUTF8 files with
  | (.ok (), files) => (.ok (), files)
  | (.error e, files) => (.error (.io s.draft e), files)

/-- Moves the draft to the place of the document, or removes it if that fails. -/
def publish (s : Store) (files : φ) : Except StoreError Unit × φ :=
  match FileSystem.rename s.draft s.path files with
  | (.ok (), files) => (.ok (), files)
  | (.error e, files) => (.error (.io s.path e), (FileSystem.remove s.draft files).2)

/-- Saves a document. -/
def save (s : Store) (d : Document) (files : φ) : Except StoreError (List Event) × φ :=
  match s.makeParent files with
  | (.error e, files) => (.error e, files)
  | (.ok (), files) =>
    match s.writeDraft d.toYaml files with
    | (.error e, files) => (.error e, files)
    | (.ok (), files) =>
      match s.publish files with
      | (.error e, files) => (.error e, files)
      | (.ok (), files) => (.ok [.documentSaved s.path d.restaurants.length], files)

end Saving

end Store

end LunchRush
