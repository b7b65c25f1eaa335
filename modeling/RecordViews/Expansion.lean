import RecordViews.Round
import RecordViews.Settings.Load
import RecordViews.Source.Unit

/-!
Expansion of a module: its views are generated into the module itself, behind its own items, and the
messages of the round come out as items that the compiler reports.
-/

namespace RecordViews

open Grammar

/-- Options of an expansion; they count more than settings. -/
structure ExpansionOptions where
  suffix : Option String := none
  library : Option Path := none
deriving DecidableEq, Repr, Inhabited

inductive ExpansionFault where
  | grammar (f : Grammar.Fault)
  | options (f : AttributeFault)
  | failure (f : Failure)
  /-- The module's items are elsewhere. -/
  | noBody
  | attributes (faults : List AttributeFault)
  /-- A request asks for a place outside the module. -/
  | misplaced (module : Scope)
deriving DecidableEq, Repr, Inhabited

def ExpansionFault.messages : ExpansionFault → List String
  | .grammar f => [f.message]
  | .options f => [f.message]
  | .failure f => [f.message]
  | .noBody => ["#[views] requires an inline module body"]
  | .attributes faults => faults.map (·.message)
  | .misplaced module =>
    ["gen_module must name the annotated module " ++
      AttributeFault.ticked ("::".intercalate module) ++
      "; use the build-script generator to place views elsewhere"]

namespace ExpansionOptions

def setOption (key : String) (o : ExpansionOptions) : OptionReader ExpansionOptions := do
  match key with
  | "suffix" =>
    let _ ← mark "="
    return { o with suffix := Text.stringValue? (← stringLiteral) }
  | "runtime" => return { o with library := some (← Options.pathValue) }
  | _ => throw .notExpansionOption

def read (args : Stream) : Except AttributeFault ExpansionOptions :=
  Options.ofStream args setOption {}

def applyTo (o : ExpansionOptions) (s : Settings) : Settings :=
  { s with
    viewSuffix := o.suffix.getD s.viewSuffix
    library := (o.library.map fun path => path.tokens.render).getD s.library }

end ExpansionOptions

/-- A message as an item: an error ends compilation, and a warning is given for the use of a
constant that is marked as outdated. -/
def Diagnostic.tokens (d : Diagnostic) : Tokens :=
  let text : Tokens := [.literal (Text.quote d.message)]
  match d.severity with
  | .error => words ":: core :: compile_error !" ++ Tokens.braces text
  | .warning =>
    words "const _ : ( ) =" ++
      Tokens.braces (words "#" ++
        Tokens.brackets (.ident "deprecated" :: Tokens.parens (words "note =" ++ text)) ++
        words "const VIEW_SYNTH_WARNING : ( ) = ( ) ; VIEW_SYNTH_WARNING") ++
      words ";"

namespace Expansion

def packageVariable : String := "CARGO_MANIFEST_DIR"

/-- The settings of the package that is compiled, and the defaults outside of one. -/
def packageSettings (around : Surroundings) : Except Failure Settings :=
  match around.environment.lookup packageVariable with
  | some directory => Settings.load around directory
  | none => .ok {}

/-- Every module that a request asks for its view or meta type to be in. -/
def places (b : Bearer) : List Scope :=
  b.requests.filterMap (·.genModule) ++ b.metas.filterMap (·.genModule)

def expandModule (settings : Settings) (head : ModuleHead) (items : List Item) :
    Except ExpansionFault Tokens := do
  let scope := [unraw head.name]
  let unit ← (SourceUnit.ofItems (fun _ => default) scope items).mapError .attributes
  if unit.bearers.any fun b => (places b).any (· != scope) then .error (.misplaced scope)
  let library ← settings.libraryPath.mapError .failure
  let derives ← settings.derivePaths.mapError .failure
  let r : Round := { settings, library, model := unit.model, bearers := unit.bearers }
  let p := r.run (Renderer.ofDerives derives) Sink.memory {} []
  if let some text := p.aborted? then .error (.failure (.abort text))
  return Item.moduleTokens head
    (Item.listTokens (items.map Item.withoutHelpers) ++ p.sink.flatMap (·.tokens) ++
      p.diagnostics.flatMap Diagnostic.tokens)

def expand (around : Surroundings) (args item : Stream) : Except ExpansionFault Tokens := do
  let read ← (readAll readModule item).mapError .grammar
  let options ← (ExpansionOptions.read args).mapError .options
  let settings ← (packageSettings around).mapError .failure
  match read with
  | .module head items => expandModule (options.applyTo settings) head items
  | _ => .error .noBody

end Expansion

end RecordViews
