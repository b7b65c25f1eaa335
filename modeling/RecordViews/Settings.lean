import RecordViews.Failure

/-!
Settings that all requests of a round share.
-/

namespace RecordViews

open Grammar (Path)

structure Settings where
  viewSuffix : String := "View"
  metaSuffix : String := "Meta"
  /-- The path of the library that generated code uses. -/
  library : String := "::view_synth"
  derives : List String := ["Debug", "Clone"]
deriving DecidableEq, Repr, Inhabited

def readSettingPath (text : String) : Except Failure Path :=
  match Grammar.readText Grammar.readPath text with
  | .ok path => .ok path
  | .error _ => .error (.name text)

namespace Settings

def libraryPath (s : Settings) : Except Failure Path :=
  readSettingPath s.library

def derivePaths (s : Settings) : Except Failure (List Path) :=
  s.derives.mapM readSettingPath

end Settings

end RecordViews
