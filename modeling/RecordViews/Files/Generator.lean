import RecordViews.Files.Sink
import RecordViews.Round
import RecordViews.Settings.Load
import RecordViews.Source.Unit

/-!
One round over the source files of a package, its units kept in files.
-/

namespace RecordViews

open Grammar

structure Generator where
  outDirectory : String
  /-- Settings to use instead of those that could be loaded. -/
  settings : Option Settings := none
  /-- Where settings are loaded from, if not from the root. -/
  settingsDirectory : Option String := none
  /-- The path of each source file, and the module that its items are in. -/
  sources : List (String × String) := []
deriving DecidableEq, Repr, Inhabited

inductive GeneratorFault where
  | failure (f : Failure)
  | notAFile (path : String)
  | source (path : String) (f : SourceFault)
deriving DecidableEq, Repr, Inhabited

def SourceFault.message : SourceFault → String
  | .grammar f => f.message
  | .attributes faults => "; ".intercalate (faults.map (·.message))

def GeneratorFault.message : GeneratorFault → String
  | .failure f => f.message
  | .notAFile path => "failed to parse '" ++ path ++ "': expected a file path"
  | .source path f => "failed to parse '" ++ path ++ "': " ++ f.message

namespace Generator

/-- The name of the file that a path ends in, and of the directories before it. -/
def splitPath? (path : String) : Option (List String × String) :=
  let names := pathNames path
  match names.getLast? with
  | none => none
  | some ".." => none
  | some name => some (names.dropLast, name)

def loadSettings (g : Generator) (around : Surroundings) : Except Failure Settings :=
  match g.settings with
  | some settings => .ok settings
  | none => Settings.load around (g.settingsDirectory.getD ".")

def sourceText (files : FileTree) (path : String) : Except GeneratorFault String :=
  match splitPath? path with
  | none => .error (.notAFile path)
  | some (directories, name) =>
    let text : Except FileFault String := do
      if path.startsWith "/" then .error .notFound
      files.read (← files.enter [] directories) name
    text.mapError fun f => .failure (.file path f)

def readSource (files : FileTree) (path module : String) : Except GeneratorFault SourceUnit := do
  let text ← sourceText files path
  let items ← (itemsOfText text).mapError fun f => .source path (.grammar f)
  match TypeName.ofText? module with
  | none => .error (.failure (.name module))
  | some name =>
    (SourceUnit.ofFile (Location.ofPlace (withoutPreamble text)) name.asScope items).mapError
      fun faults => .source path (.attributes faults)

/-- The round that the sources make, with the renderer of its settings. -/
def round (g : Generator) (around : Surroundings) : Except GeneratorFault (Round × Renderer) := do
  let settings ← (g.loadSettings around).mapError .failure
  let units ← g.sources.mapM fun (path, module) => readSource around.files path module
  let unit := units.foldl SourceUnit.merge {}
  let library ← settings.libraryPath.mapError .failure
  let derives ← settings.derivePaths.mapError .failure
  return ({ settings, library, model := unit.model, bearers := unit.bearers },
    Renderer.ofDerives derives)

/-- Carries the round out; `layout` writes a unit. The report of a round without errors
comes with the files as the round leaves them. -/
def generate (g : Generator) (layout : SourceFile → String) (around : Surroundings) :
    Except GeneratorFault Report × FileTree :=
  match g.round around with
  | .error f => (.error f, around.files)
  | .ok (r, renderer) =>
    match around.files.ensureDirectory g.outDirectory with
    | (.error f, files) => (.error (.failure (.file g.outDirectory f)), files)
    | (.ok place, files) =>
      let sink := Sink.files (FileTree.folder place) g.outDirectory layout
      let p := r.run renderer sink {} { folder := files }
      let result := match p.aborted?.map .abort <|> p.report.failure? with
        | some f => .error (.failure f)
        | none => .ok p.report
      (result, p.sink.folder)

end Generator

end RecordViews
