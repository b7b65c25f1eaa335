import RecordViews.Diagnostic
import RecordViews.Property
import RecordViews.Request

/-!
Changes to the properties of a view. A change that cannot be made drops its property and nothing
else.
-/

namespace RecordViews

open Grammar (Ty Path)

/-- What changing a property depends on. -/
structure Customiser where
  target : TypeName
  source : SourceType
  config : TypeName
  scope : Scope
  library : Path
  getters : Access

/-- The properties so far, the diagnostics, and the messages of dropped properties. -/
structure Customised where
  properties : List Property
  diagnostics : List Diagnostic := []
  errors : List String := []
  /-- The first text that ends the run. Whatever else comes of the changes does not count then. -/
  aborted : Option String := none
deriving DecidableEq, Repr, Inhabited

namespace Customiser

def fault {α : Type} (c : Customiser) (f : ConfigurationFault) : Except Failure α :=
  .error (.configuration c.target f)

def checkName (c : Customiser) (name : String) : Except Failure Unit :=
  checkIdentifier name (.configuration c.target (.propertyName name))

def changeGetter (o : Override) (p : Property) : Property :=
  o.getter.elim p p.withGetter

def changeSetter (c : Customiser) (o : Override) (p : Property) : Except Failure Property :=
  match o.setter with
  | none => .ok p
  | some access =>
    if !access.isNone && !p.writable then c.fault (.readOnlySetter p.name)
    else .ok (p.withSetter access)

def changeExtractor (c : Customiser) (o : Override) (p : Property) : Except Failure Property :=
  match o.extractor with
  | none => .ok p
  | some s => do
    (Extractor.function s).check c.target (some p.ty)
    return p.withExtractor (.function s)

def changeConverter (c : Customiser) (o : Override) (p : Property) : Except Failure Property :=
  match o.converter with
  | none => .ok p
  | some choice =>
    if p.explicit.isSome then c.fault (.computedConverter p.name)
    else
      let converter := Converter.bind choice.path p.ty choice.output c.library
      .ok ((p.withConverter converter).withType converter.output none)

def changeView (c : Customiser) (o : Override) (p : Property) : Except Failure Property :=
  match o.view with
  | none => .ok p
  | some view =>
    if p.explicit.isSome then c.fault (.computedProjection p.name view)
    else
      match Ty.ofName view c.scope with
      | .ok ty => .ok (p.withType ty (some view))
      | .error f => .error (.ofName f)

def changeComment (o : Override) (p : Property) : Property :=
  if o.comment.isSome then p.withComment o.comment else p

def changeName (c : Customiser) (o : Override) (p : Property) : Except Failure Property :=
  match o.rename with
  | none => .ok p
  | some name => do
    c.checkName name
    return p.withName name

def change (c : Customiser) (o : Override) (p : Property) : Except Failure Property := do
  let p := changeGetter o p
  let p ← c.changeSetter o p
  let p ← c.changeExtractor o p
  let p ← c.changeConverter o p
  let p ← c.changeView o p
  c.changeName o (changeComment o p)

def newProperty (c : Customiser) (a : Addition) : Except Failure Property := do
  c.checkName a.name
  if a.setter.any (!·.isNone) then c.fault (.computedSetter a.name)
  (Extractor.function a.function).check c.target none
  return Property.computed a.name a.function (a.getter.getD c.getters)

def missingMessage (c : Customiser) (name : String) : String :=
  "The property \"" ++ name ++ "\" configured on \"" ++ c.config.text ++
    "\" does not exist in \"" ++ c.target.text ++ "\"."

def drop (c : Customiser) (s : Customised) (f : Failure) : Customised :=
  { s with
    diagnostics := s.diagnostics ++ [.error c.config c.target f.message]
    errors := s.errors ++ [f.message]
    aborted := s.aborted.or f.abort? }

/-- Makes one change to the first property that has its name at that time. A change that names no
member is reported; one that names a member which the view does not show is not. -/
def applyOverride (c : Customiser) (s : Customised) (o : Override) : Customised :=
  match s.properties.findIdx? (·.name == o.name) with
  | none =>
    if (c.source.member? o.name).isSome then s
    else
      { s with
        diagnostics := s.diagnostics ++
          [.warning c.config c.target (c.missingMessage o.name)] }
  | some i =>
    match s.properties[i]? with
    | none => s
    | some p =>
      match c.change o p with
      | .ok q => { s with properties := s.properties.set i q }
      | .error f => c.drop { s with properties := s.properties.eraseIdx i } f

def applyAddition (c : Customiser) (s : Customised) (a : Addition) : Customised :=
  match c.newProperty a with
  | .ok p => { s with properties := s.properties ++ [p] }
  | .error f => c.drop s f

/-- Makes the changes of a bearer, then adds its further properties. -/
def apply (c : Customiser) (b : Bearer) (properties : List Property) : Customised :=
  b.additions.foldl c.applyAddition (b.overrides.foldl c.applyOverride { properties })

end Customiser

end RecordViews
