import RecordViews.Failure
import RecordViews.Grammar.Items
import RecordViews.Request
import RecordViews.Source.Helper

/-!
The options of a helper attribute: keys with values, and commas between them. Each kind of value has
its reader; paths are read as written in the module of the attribute.
-/

namespace RecordViews

open Grammar

/-- What is wrong with a helper attribute. -/
inductive AttributeFault where
  | grammar (f : Grammar.Fault)
  | bare (inner : Bool) (path : Path)
  /-- A value stands where options belong. -/
  | value (inner : Bool) (path : Path)
  | unsupported (helper : Helper) (key : String)
  /-- An option that an expansion does not have. -/
  | notExpansionOption
  | notString (key : String)
  | notBoolean (key : String)
  | access (word : String)
  | notSelector
  | notType
  | notModule (key : String)
  /-- A change that names no member. -/
  | unnamed
  | outputWithoutConverter
  | accessOfExtracted
  /-- A function neither gives a new property nor extracts a member, or it does both. -/
  | functionRole
deriving DecidableEq, Repr, Inhabited

namespace AttributeFault

def ticked (text : String) : String := "\x60" ++ text ++ "\x60"

def shape (inner : Bool) (path : Path) : String :=
  (if inner then "#![" else "#[") ++ path.joined ++ "(...)]"

def message : AttributeFault → String
  | .grammar f => f.message
  | .bare inner path => "expected attribute arguments in parentheses: " ++ shape inner path
  | .value inner path => "expected parentheses: " ++ shape inner path
  | .unsupported helper key => "unsupported " ++ helper.word ++ " option " ++ ticked key
  | .notExpansionOption =>
    "unsupported views option; expected " ++ ticked "suffix" ++ " or " ++ ticked "runtime"
  | .notString key => key ++ " must be a string"
  | .notBoolean key => key ++ " must be a boolean"
  | .access word => (Failure.access word).message
  | .notSelector => "expected " ++ ticked "Self" ++ " or a path to a non-generic type"
  | .notType => "expected a path to a non-generic type"
  | .notModule key => key ++ " must be a module path"
  | .unnamed =>
    "view_property on a type needs " ++ ticked "name = \"...\"" ++ " naming the member it adjusts"
  | .outputWithoutConverter => ticked "converter_output" ++ " requires " ++ ticked "converter"
  | .accessOfExtracted => "accessors of an extracted member are set on the type's view_property"
  | .functionRole =>
    "view_property on a function needs exactly one of " ++ ticked "new = \"...\"" ++ " or " ++
      ticked "extract = \"...\""

end AttributeFault

abbrev OptionReader (α : Type) := StateT Input (Except AttributeFault) α

instance : MonadLift Reader OptionReader where
  monadLift r := fun i => (r i).mapError .grammar

namespace Options

def literalValue : OptionReader Tokens := do
  let _ ← mark "="
  literal

def writtenString (key : String) : OptionReader String := do
  match ← literalValue with
  | [.literal text] =>
    if (Text.stringValue? text).isSome then return text else throw (.notString key)
  | _ => throw (.notString key)

def stringValue (key : String) : OptionReader String := do
  return (Text.stringValue? (← writtenString key)).getD ""

def boolValue (key : String) : OptionReader Bool := do
  match ← literalValue with
  | [.ident word] => return word == "true"
  | _ => throw (.notBoolean key)

def accessValue (key : String) : OptionReader Access := do
  let word ← stringValue key
  match Access.ofWord? word with
  | some a => return a
  | none => throw (.access word)

/-- What a string behind an equals sign says when it is read as source. -/
def sourceValue {α : Type} (r : Reader α) (key : String) : OptionReader α := do
  match readQuoted r (← writtenString key) with
  | .ok a => return a
  | .error f => throw (.grammar f)

def typeValue (key : String) : OptionReader Ty :=
  sourceValue readType key

def pathValue : OptionReader Path := do
  let _ ← mark "="
  readPath

def stringList : OptionReader (List String) := do
  let parts ← group .paren (commaList stringLiteral)
  return parts.map fun p => (Text.stringValue? p.1).getD ""

def typeName (scope : Scope) : OptionReader TypeName := do
  match TypeName.resolve? scope (← pathValue) with
  | some name => return name
  | none => throw .notType

def selector (scope : Scope) : OptionReader Selector := do
  let path ← pathValue
  if path.single? == some "Self" then return .itself
  match TypeName.resolve? scope path with
  | some name => return .named name
  | none => throw .notSelector

def moduleScope (scope : Scope) (key : String) : OptionReader Scope := do
  match TypeName.resolve? scope (← sourceValue readPath key) with
  | some name => return name.asScope
  | none => throw (.notModule key)

def keyPath : Reader Path := do
  let leading ← mark? "::"
  if !(← sees fun s => s.word?.isSome) then
    if ← atEnd then expected "expected nested attribute"
    if ← sees Stream.isLiteral then
      expected "unexpected literal in nested attribute, expected ident"
    expected "unexpected token in nested attribute, expected ident"
  let first ← anyWord
  let names ← loop [first] fun names => do
    if !(← sees (Stream.isMark "::")) then return (names, false)
    let _ ← mark "::"
    return ((← anyWord) :: names, true)
  return { Path.ofNames names.reverse with leading := !leading.isEmpty }

/-- Reads options one after the other; `option` is given the key, which is empty if it is a longer
path, and what the options before it made. -/
def options {α : Type} (option : String → α → OptionReader α) (start : α) : OptionReader α :=
  loop start fun a => do
    if ← atEnd then return (a, false)
    let path ← keyPath
    let b ← option (path.single?.getD "") a
    if ← atEnd then return (b, false)
    let _ ← mark ","
    return (b, true)

/-- What the options in a stream make of `start`. -/
def ofStream {α : Type} (s : Stream) (option : String → α → OptionReader α) (start : α) :
    Except AttributeFault α := do
  let (a, left) ← options option start ⟨s, none⟩
  match left.leftover? with
  | none => return a
  | some f => .error (.grammar f)

/-- What the options of an attribute make of `start`. -/
def ofAttribute {α : Type} (a : Attribute) (option : String → α → OptionReader α) (start : α) :
    Except AttributeFault α :=
  match a.args with
  | .bare => .error (.bare a.inner a.path)
  | .value .. => .error (.value a.inner a.path)
  | .list _ inner => ofStream (Stream.ofTokens inner) option start

end Options

end RecordViews
