import RecordViews.Files.Tree
import RecordViews.Grammar.Items
import RecordViews.Sink

/-!
A sink that keeps each unit in a file of its own.
-/

namespace RecordViews

open Grammar

def generatedHeader : String :=
  "// @generated by view_synth. Do not edit by hand.\n\n"

/-- The state of a sink of files: the directory, and the paths written so far. -/
structure FileStore (σ : Type) where
  folder : σ
  written : List String := []
deriving Repr, Inhabited

/-- Keeps units in the files of a directory, which is named `root` in paths; `layout` writes a
unit, which has to be what a file can hold. -/
def Sink.files {σ : Type} (folder : Folder σ) (root : String) (layout : SourceFile → String) :
    Sink (FileStore σ) where
  emit store name tokens :=
    match readAll readFile (Stream.ofTokens tokens) with
    | .error f => (.error (.shape f), store)
    | .ok content =>
      let file := fileName name
      match folder.replace store.folder file (generatedHeader ++ layout content) with
      | (.ok (), s) => (.ok (), ⟨s, store.written ++ [joinPath root file]⟩)
      | (.error f, s) => (.error (.file (joinPath root file) f), { store with folder := s })

end RecordViews
