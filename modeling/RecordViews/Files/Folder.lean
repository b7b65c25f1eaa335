import RecordViews.Failure

/-!
Files of one directory. A file is replaced as a whole: the new text is written under another name
first, so that the old one stays until the new one is complete.
-/

namespace RecordViews

variable {σ : Type}

/-- What can be done to the files of a directory with states of type `σ`. -/
structure Folder (σ : Type) where
  /-- Makes an empty file of the given name, whether there was one or not. -/
  clear : σ → String → Except FileFault Unit × σ
  write : σ → String → String → Except FileFault Unit × σ
  /-- Gives a file another name; it replaces a file of that name. -/
  rename : σ → String → String → Except FileFault Unit × σ
  remove : σ → String → Except FileFault Unit × σ

/-- Does the second step in the state that the first leaves, unless the first fails. -/
def andThen (first : Except FileFault Unit × σ) (second : σ → Except FileFault Unit × σ) :
    Except FileFault Unit × σ :=
  match first with
  | (.ok (), s) => second s
  | (.error f, s) => (.error f, s)

namespace Folder

/-- The name under which the new text of a file is written first. -/
def stagingName (file : String) : String :=
  "." ++ file ++ ".tmp"

/-- Replaces the text of a file. If that fails, what was written first is removed. -/
def replace (folder : Folder σ) (s : σ) (file text : String) : Except FileFault Unit × σ :=
  let staging := stagingName file
  let done := andThen (folder.clear s staging) fun s =>
    andThen (folder.write s staging text) fun s => folder.rename s staging file
  match done with
  | (.ok (), s) => (.ok (), s)
  | (.error f, s) => (.error f, (folder.remove s staging).2)

end Folder

end RecordViews
