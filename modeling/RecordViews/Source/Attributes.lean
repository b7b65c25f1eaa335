import RecordViews.Source.Options

/-!
What each helper attribute says: a request, a change to a property, or the part that a function
plays.
-/

namespace RecordViews

open Grammar Options

namespace ViewRequest

def setOption (scope : Scope) (key : String) (r : ViewRequest) : OptionReader ViewRequest := do
  match key with
  | "target" => return { r with target := ← selector scope }
  | "config" => return { r with config := ← selector scope }
  | "gen_module" => return { r with genModule := some (← moduleScope scope key) }
  | "gen_name" => return { r with genName := some (← stringValue key) }
  | "access" => return { r with access := ← accessValue key }
  | "empty_ctor" => return { r with emptyCtor := ← accessValue key }
  | "fields_ctor" => return { r with fieldsCtor := ← accessValue key }
  | "copy_ctor" => return { r with copyCtor := ← accessValue key }
  | "getters" => return { r with getters := ← accessValue key }
  | "setters" => return { r with setters := ← accessValue key }
  | "includes" => return { r with includes := r.includes ++ (← stringList) }
  | "excludes" => return { r with excludes := r.excludes ++ (← stringList) }
  | "include_pattern" => return { r with includePattern := some (← stringValue key) }
  | "exclude_pattern" => return { r with excludePattern := some (← stringValue key) }
  | "error_methods" => return { r with errorMethods := ← boolValue key }
  | _ => throw (.unsupported .viewOf key)

/-- The request that an attribute in the module `scope` makes; without options it is the default
one. -/
def ofAttribute (scope : Scope) (a : Attribute) : Except AttributeFault ViewRequest :=
  match a.args with
  | .bare => .ok {}
  | _ => Options.ofAttribute a (setOption scope) {}

end ViewRequest

namespace MetaRequest

def setOption (scope : Scope) (key : String) (r : MetaRequest) : OptionReader MetaRequest := do
  match key with
  | "target" => return { r with target := ← selector scope }
  | "gen_module" => return { r with genModule := some (← moduleScope scope key) }
  | "gen_name" => return { r with genName := some (← stringValue key) }
  | "access" => return { r with access := ← accessValue key }
  | _ => throw (.unsupported .viewMeta key)

/-- The request that an attribute in the module `scope` makes; without options it is the default
one. -/
def ofAttribute (scope : Scope) (a : Attribute) : Except AttributeFault MetaRequest :=
  match a.args with
  | .bare => .ok {}
  | _ => Options.ofAttribute a (setOption scope) {}

end MetaRequest

/-- A change while its options are read: the converter and its output come apart. -/
structure OverrideDraft where
  override : Override := { name := "" }
  converter : Option Path := none
  output : Option Ty := none

namespace OverrideDraft

def setOption (scope : Scope) (key : String) (d : OverrideDraft) : OptionReader OverrideDraft := do
  let o := d.override
  match key with
  | "name" => return { d with override := { o with name := ← stringValue key } }
  | "rename" => return { d with override := { o with rename := some (← stringValue key) } }
  | "getter" => return { d with override := { o with getter := some (← accessValue key) } }
  | "setter" => return { d with override := { o with setter := some (← accessValue key) } }
  | "converter" => return { d with converter := some (← pathValue) }
  | "converter_output" => return { d with output := some (← typeValue key) }
  | "view" => return { d with override := { o with view := some (← typeName scope) } }
  | "comment" => return { d with override := { o with comment := some (← stringValue key) } }
  | _ => throw (.unsupported .viewProperty key)

/-- The finished change. It names a member, and an output comes with a converter. -/
def finish (d : OverrideDraft) : Except AttributeFault Override :=
  if d.override.name.isEmpty then .error .unnamed
  else
    match d.converter, d.output with
    | some path, output => .ok { d.override with converter := some { path, output } }
    | none, some _ => .error .outputWithoutConverter
    | none, none => .ok d.override

end OverrideDraft

/-- The change that an attribute on a record in the module `scope` makes. -/
def Override.ofAttribute (scope : Scope) (a : Attribute) : Except AttributeFault Override := do
  (← Options.ofAttribute a (OverrideDraft.setOption scope) {}).finish

inductive FunctionRole where
  | adds (name : String) (getter setter : Option Access)
  | extracts (member : String)
deriving DecidableEq, Repr, Inhabited

structure FunctionOptions where
  new : Option String := none
  extract : Option String := none
  getter : Option Access := none
  setter : Option Access := none

namespace FunctionOptions

def setOption (key : String) (o : FunctionOptions) : OptionReader FunctionOptions := do
  match key with
  | "new" => return { o with new := some (← stringValue key) }
  | "extract" => return { o with extract := some (← stringValue key) }
  | "getter" => return { o with getter := some (← accessValue key) }
  | "setter" => return { o with setter := some (← accessValue key) }
  | _ => throw (.unsupported .viewProperty key)

def role (o : FunctionOptions) : Except AttributeFault FunctionRole :=
  match o.new, o.extract with
  | some name, none => .ok (.adds name o.getter o.setter)
  | none, some member =>
    if o.getter.isNone && o.setter.isNone then .ok (.extracts member)
    else .error .accessOfExtracted
  | _, _ => .error .functionRole

end FunctionOptions

def FunctionRole.ofAttribute (a : Attribute) : Except AttributeFault FunctionRole := do
  (← Options.ofAttribute a FunctionOptions.setOption {}).role

end RecordViews
