import RecordViews.Property.Customiser
import RecordViews.Repeated
import RecordViews.Selection.Properties
import RecordViews.Settings
import RecordViews.View

/-!
From a request to the view or meta type that it asks for.
-/

namespace RecordViews

open Grammar (Path)

/-- What the requests of a round are resolved against. -/
structure Round where
  settings : Settings := {}
  /-- The path of the library that generated code uses, read from the settings. -/
  library : Path
  model : Model := {}
  bearers : List Bearer := []
deriving DecidableEq, Repr, Inhabited

/-- A view or the reason why there is none, with the diagnostics that come up on the way. -/
structure Resolved (α : Type) where
  result : Except Failure α
  diagnostics : List Diagnostic := []

namespace Round

def fault {α : Type} (target : TypeName) (f : ConfigurationFault) : Except Failure α :=
  .error (.configuration target f)

def checkGenerated (name target : TypeName) : Except Failure Unit :=
  checkIdentifier name.simple (.configuration target (.generatedName name.simple))

def configBearer? (r : Round) (config : TypeName) : Option Bearer :=
  r.bearers.find? (·.name == config)

def viewName (r : Round) (bearer : Bearer) (request : ViewRequest) : TypeName :=
  request.generated bearer.name r.settings.viewSuffix

def metaName (r : Round) (bearer : Bearer) (request : MetaRequest) : TypeName :=
  request.generated bearer.name r.settings.metaSuffix

/-- The record that a request is about, if a view of it can be generated. -/
def viewable (r : Round) (bearer : Bearer) (request : ViewRequest) : Except Failure SourceType := do
  let target := request.target.resolve bearer.name
  let config := request.config.resolve bearer.name
  let name := r.viewName bearer request
  checkGenerated name target
  match r.model.find? target with
  | none => fault target .unknownType
  | some source =>
    if source.generic then fault target .genericType
    else if request.access.isNone then fault target (.viewWithoutAccess name)
    else if (r.configBearer? config).isNone && (r.model.find? config).isNone then
      fault target (.unknownConfig config)
    else .ok source

def startingProperties (r : Round) (bearer : Bearer) (request : ViewRequest)
    (source : SourceType) : Except Failure (List Property) :=
  let target := request.target.resolve bearer.name
  let config := request.config.resolve bearer.name
  baseProperties source (contributing r.bearers target config) request

def customised (r : Round) (bearer : Bearer) (request : ViewRequest) (source : SourceType)
    (properties : List Property) : Customised :=
  let config := request.config.resolve bearer.name
  match r.configBearer? config with
  | none => { properties }
  | some b =>
    let c : Customiser :=
      { target := request.target.resolve bearer.name
        source
        config
        scope := (r.viewName bearer request).module
        library := r.library
        getters := request.getters }
    c.apply b properties

/-- The view of a request from its properties, whose names must differ. -/
def assemble (r : Round) (bearer : Bearer) (request : ViewRequest) (source : SourceType)
    (c : Customised) : Except Failure View :=
  let target := request.target.resolve bearer.name
  let name := r.viewName bearer request
  match c.aborted with
  | some text => .error (.abort text)
  | none =>
    match firstRepeated? [] (c.properties.map (·.name)) with
    | some property => fault target (.repeatedProperty name property)
    | none => .ok {
        name
        target
        config := request.config.resolve bearer.name
        request
        properties := c.properties
        errors := c.errors
        comment := source.comment }

def resolveView (r : Round) (bearer : Bearer) (request : ViewRequest) : Resolved View :=
  match r.viewable bearer request with
  | .error f => { result := .error f }
  | .ok source =>
    match r.startingProperties bearer request source with
    | .error f => { result := .error f }
    | .ok properties =>
      let c := r.customised bearer request source properties
      { result := r.assemble bearer request source c, diagnostics := c.diagnostics }

def resolveMeta (r : Round) (bearer : Bearer) (request : MetaRequest) :
    Except Failure MetaType := do
  let target := request.target.resolve bearer.name
  let name := r.metaName bearer request
  checkGenerated name target
  match r.model.find? target with
  | none => fault target .unknownType
  | some source =>
    if request.access.isNone then fault target (.metaWithoutAccess name)
    else .ok { name, target, access := request.access, members := source.members.map (·.name) }

end Round

end RecordViews
