import RecordViews.Files.Tree
import RecordViews.Settings
import RecordViews.Settings.Environment
import RecordViews.Settings.Toml

/-!
Loading settings. What a file says replaces the defaults, and what the environment says replaces
what the file says. Names that are no settings do not count.
-/

namespace RecordViews

/-- Where settings come from: the files of a package and the variables of its environment. -/
structure Surroundings where
  files : FileTree := {}
  environment : List (String × String) := []
deriving Repr, Inhabited

namespace Settings

def fileName : String := "view_synth.toml"

def textOf (key : String) : SettingValue → Except Failure String
  | .text s => .ok s
  | .list _ | .other => .error (.settings key)

/-- The texts in a list; each is named by its place in it. -/
def textsOf (key : String) : SettingValue → Except Failure (List String)
  | .list items =>
    (items.zipIdx).mapM fun (v, i) => textOf (key ++ "." ++ Nat.repr i) v
  | .text _ | .other => .error (.settings key)

/-- The settings of the layers, the later of which count more. -/
def ofLayers (layers : List SettingLayer) : Except Failure Settings := do
  let read {α : Type} (key : String) (f : String → SettingValue → Except Failure α) (default : α) :
      Except Failure α :=
    match layers.reverse.findSome? (·.find? key) with
    | some v => f key v
    | none => .ok default
  let defaults : Settings := {}
  let derives ← read "derives" textsOf defaults.derives
  let metaSuffix ← read "meta_suffix" textOf defaults.metaSuffix
  let library ← read "runtime_crate" textOf defaults.library
  let viewSuffix ← read "view_suffix" textOf defaults.viewSuffix
  return { viewSuffix, metaSuffix, library, derives }

/-- The settings that a directory and the environment give. A missing file gives none. -/
def load (around : Surroundings) (directory : String) : Except Failure Settings := do
  let fileLayer ←
    match around.files.file? (joinPath directory fileName) with
    | none => pure []
    | some text =>
      match Toml.layer? text with
      | some layer => pure layer
      | none => .error (.settings "")
  ofLayers [fileLayer, Environment.layer around.environment]

end Settings

end RecordViews
