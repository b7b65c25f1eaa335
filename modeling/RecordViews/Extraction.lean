import RecordViews.Failure
import RecordViews.Model

/-!
How the value of a property is got: read from a member, or computed by a function; and converters,
which turn the value into the one that the view shows.
-/

namespace RecordViews

open Grammar (Ty Path)

structure Signature where
  container : TypeName
  name : String
  receiver : Bool := false
  /-- The types of the parameters, without the receiver. -/
  params : List Ty
  result : Ty
  comment : Option String := none
deriving DecidableEq, Repr, Inhabited

structure DirectRead where
  accessor : String
  kind : MemberKind
  ty : Ty
deriving DecidableEq, Repr, Inhabited

namespace DirectRead

def ofMember (m : Member) : DirectRead where
  accessor := match m.kind with
    | .field => m.name
    | .accessor => m.getterName.getD m.name
  kind := m.kind
  ty := m.ty

/-- The expression that reads the member from `source`. -/
def render (r : DirectRead) (source : Tokens) : Except NameFault Tokens := do
  let name ← identifier r.accessor
  let place := source ++ .punct '.' false :: [.ident name]
  return match r.kind with
    | .field =>
      words ":: core :: clone :: Clone :: clone" ++ Tokens.parens (.punct '&' false :: place)
    | .accessor => place ++ Tokens.parens []

end DirectRead

/-- How the value of a property is got. -/
inductive Extractor where
  | direct (r : DirectRead)
  | function (s : Signature)
deriving DecidableEq, Repr, Inhabited

namespace Extractor

def result : Extractor → Ty
  | .direct r => r.ty
  | .function s => s.result

def isFunction : Extractor → Bool
  | .direct _ => false
  | .function _ => true

/-- The value does not depend on the source, so that it is computed at every read. -/
def isDynamic : Extractor → Bool
  | .direct _ => false
  | .function s => s.params.isEmpty

/-- The function can give a property of `target`, of type `expected` if there is one already. -/
def checkFunction (s : Signature) (target : TypeName) (expected : Option Ty) :
    Except FunctionFault Unit :=
  if s.receiver then .error .receiver
  else if !s.result.isStorable then .error .notOwned
  else
    match expected.filter (· != s.result) with
    | some ty => .error (.otherType ty)
    | none =>
      match s.params with
      | [] => .ok ()
      | [param] =>
        if param.isSharedRefTo target s.container.module then .ok ()
        else .error (.wrongParameter target.simple s.result)
      | _ => .error (.tooManyParameters target.simple s.result)

def check (e : Extractor) (target : TypeName) (expected : Option Ty) : Except Failure Unit :=
  match e with
  | .direct _ => .ok ()
  | .function s => (checkFunction s target expected).mapError (.function s.name)

/-- The expression that gives the value, reading from `source`, in code of the module `scope`. -/
def render (e : Extractor) (scope : Scope) (source : Tokens) : Except NameFault Tokens :=
  match e with
  | .direct r => r.render source
  | .function s => do
    let container ← s.container.pathFrom scope
    let name ← identifier s.name
    return container.tokens ++ Grammar.colons ++ .ident name ::
      Tokens.parens (if s.params.isEmpty then [] else source)

end Extractor

structure Converter where
  path : Path
  input : Ty
  output : Ty
  /-- The path of the library that declares what converters are. -/
  library : Path
deriving DecidableEq, Repr, Inhabited

namespace Converter

/-- The type that a converter's output has if nothing else is said. -/
def defaultOutput (path library : Path) (input : Ty) : Ty :=
  .other (Tokens.enclose .angle (path.tokens ++ .ident "as" :: library.tokens ++
    words ":: PropertyConverter" ++ Tokens.enclose .angle input.tokens) ++ words ":: Output")

def bind (path : Path) (input : Ty) (output : Option Ty) (library : Path) : Converter :=
  { path, input, library, output := output.getD (defaultOutput path library input) }

def render (c : Converter) (value : Tokens) : Tokens :=
  words "<" ++ c.path.tokens ++ .ident "as" :: c.library.tokens ++ words ":: PropertyConverter <" ++
    c.input.tokens ++ words ">> :: convert" ++ Tokens.parens value

end Converter

end RecordViews
