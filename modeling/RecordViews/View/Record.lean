import RecordViews.Text.Quoted
import RecordViews.Text.Replace
import RecordViews.View.MemberNames

/-!
The record that a view is generated as: its fields, and functions that say what they do with them.
`GeneratedRecord.ofView` makes the record, `GeneratedRecord.tokens` writes it.
-/

namespace RecordViews

open Grammar (Ty Path)

/-- What a generated function does. -/
inductive FunctionBody where
  /-- Gives every field its default value. -/
  | defaults (fields : List String)
  | values (fields : List (String × Ty))
  /-- Gives every field the value of an expression over the source. -/
  | extracts (source : Path) (fields : List (String × Tokens))
  | reads (field : String) (ty : Ty)
  /-- Computes a value without looking at the record. -/
  | computes (ty : Ty) (value : Tokens)
  | assigns (field : String) (ty : Ty)
  /-- Gives the messages of the properties that were dropped. -/
  | errors (messages : List String)
deriving DecidableEq, Repr, Inhabited

structure GeneratedFunction where
  name : String
  access : Access
  /-- The comment taken over from a member. -/
  comment : Option String := none
  body : FunctionBody
deriving DecidableEq, Repr, Inhabited

structure GeneratedRecord where
  name : String
  /-- The full name of the record it is a view of, for its comment. -/
  sourceName : TypeName
  source : Path
  access : Access
  fields : List (String × Ty)
  functions : List GeneratedFunction
  /-- It can be made from a reference to the source by the standard conversion. -/
  convertible : Bool
  defaultable : Bool
deriving DecidableEq, Repr, Inhabited

namespace GeneratedRecord

def fault {α : Type} (view : TypeName) (f : RenderFault) : Except Failure α :=
  .error (.render view f)

/-- An identifier or path segment that could not be written, as a failure of the view. -/
def written {α : Type} (view : TypeName) (e : Except NameFault α) : Except Failure α :=
  e.mapError fun
    | .invalid name => .render view (.identifier name)
    | .abort text => .abort text

/-- The expression over the source that gives the value of a property: what is extracted, then
converted, then projected into another view. -/
def valueOf (v : View) (p : Property) : Except Failure Tokens := do
  match p.extractor? with
  | none => fault v.name (.unreadable p.name)
  | some e =>
    let extracted ← written v.name (e.render v.name.module [.ident "source"])
    let converted := p.converter.elim extracted fun c => c.render extracted
    match p.view with
    | none => return converted
    | some nested =>
      let path ← written v.name (nested.pathFrom v.name.module)
      return path.tokens ++ words ":: from_source" ++
        Tokens.parens (.punct '&' false :: converted)

def fieldTypes (slots : List Slot) : List (String × Ty) :=
  slots.map fun s => (s.names.field, s.property.ty)

/-- A function of the given access, unless it is none. -/
def unlessNone (access : Access) (f : GeneratedFunction) : List GeneratedFunction :=
  if access.isNone then [] else [f]

def emptyFunction (v : View) (slots : List Slot) : List GeneratedFunction :=
  unlessNone v.request.emptyCtor
    { name := "empty", access := v.request.emptyCtor,
      body := .defaults (slots.map (·.names.field)) }

def newFunction (v : View) (slots : List Slot) : List GeneratedFunction :=
  unlessNone v.request.fieldsCtor
    { name := "new", access := v.request.fieldsCtor, body := .values (fieldTypes slots) }

def copyFunction (v : View) (source : Path) (slots : List Slot) :
    Except Failure (List GeneratedFunction) := do
  if v.request.copyCtor.isNone then return []
  let values ← slots.mapM fun s => (valueOf v s.property).map (s.names.field, ·)
  return [{ name := "from_source", access := v.request.copyCtor, body := .extracts source values }]

/-- What the getter of a property does: it gives the field, unless the value is computed anew at
every call. -/
def getterBody (v : View) (s : Slot) : Except Failure FunctionBody :=
  match s.property.explicit.filter Extractor.isDynamic with
  | none => .ok (.reads s.names.field s.property.ty)
  | some e => (written v.name (e.render v.name.module [])).map (.computes s.property.ty)

def getterFunction (v : View) (s : Slot) : Except Failure (List GeneratedFunction) := do
  if !s.property.hasGetter then return []
  return [{ name := s.names.getter, access := s.property.getter, comment := s.property.comment,
            body := ← getterBody v s }]

def setterFunction (s : Slot) : List GeneratedFunction :=
  unlessNone s.property.setter
    { name := s.names.setter, access := s.property.setter,
      body := .assigns s.names.field s.property.ty }

def accessors (v : View) : List Slot → Except Failure (List GeneratedFunction)
  | [] => .ok []
  | s :: rest => do
    let getter ← getterFunction v s
    return getter ++ setterFunction s ++ (← accessors v rest)

def errorsFunction (v : View) : List GeneratedFunction :=
  if v.request.errorMethods then
    [{ name := "view_errors", access := .everywhere, body := .errors v.errors }]
  else []

def ofView (v : View) : Except Failure GeneratedRecord := do
  let slots ← written v.name (Slot.ofProperties v.properties)
  if let some name := Slot.repeatedFunction? slots then
    fault v.name (.repeatedMethod name)
  let name ← written v.name (identifier v.name.simple)
  let source ← written v.name (v.target.pathFrom v.name.module)
  let copy ← copyFunction v source slots
  let accessors ← accessors v slots
  return {
    name
    sourceName := v.target
    source
    access := v.request.access
    fields := fieldTypes slots
    functions := emptyFunction v slots ++ newFunction v slots ++ copy ++ accessors ++
      errorsFunction v
    convertible := v.request.copyCtor == .everywhere
    defaultable := v.request.emptyCtor == .everywhere }

end GeneratedRecord

def stringToken (s : String) : Token :=
  .literal (Text.quote s)

def docLine (text : Token) : Tokens :=
  .punct '#' false :: Tokens.brackets (words "doc =" ++ [text])

/-- The lines of a comment, each behind a blank; nothing stands for an empty line. -/
def docText (comment : String) : List String :=
  (Text.lines comment).map fun line => if line.isEmpty then "" else " " ++ line

def docTokens (comment : Option String) : Tokens :=
  (comment.elim [] docText).flatMap fun line => docLine (stringToken line)

def rawDoc (text : String) : Tokens :=
  docLine (.literal ("r\" " ++ text ++ "\""))

def allowTokens (what reason : String) : Tokens :=
  words "#" ++ Tokens.brackets (words "allow" ++
    Tokens.parens (words what ++ words ", reason =" ++ [stringToken reason]))

def typedField (f : String × Ty) : Tokens :=
  .ident f.1 :: .punct ':' false :: f.2.tokens

def recordValue (fields : List Tokens) : Tokens :=
  Tokens.braces (.ident "Self" :: Tokens.braces (Tokens.commaTerminated fields))

namespace GeneratedFunction

def header (f : GeneratedFunction) (params result : Tokens) : Tokens :=
  f.access.tokens ++ .ident "fn" :: .ident f.name :: Tokens.parens params ++ result

def resultTokens (ty : Tokens) : Tokens :=
  words "->" ++ ty

def tokens (f : GeneratedFunction) : Tokens :=
  let own := resultTokens [.ident "Self"]
  match f.body with
  | .defaults fields =>
    rawDoc "Creates a view with every property set to its default value." ++ f.header [] own ++
      recordValue (fields.map fun field =>
        .ident field :: words ": :: core :: default :: Default :: default ( )")
  | .values fields =>
    rawDoc "Creates a view from its property values." ++
      allowTokens "clippy :: too_many_arguments"
        "the constructor takes one argument per property" ++
      f.header (Tokens.commaSeparated (fields.map typedField)) own ++
      recordValue (fields.map fun field => [.ident field.1])
  | .extracts source fields =>
    rawDoc "Creates a view by extracting every property from \x60source\x60." ++
      f.header (words "source : &" ++ source.tokens) own ++
      recordValue (fields.map fun field => .ident field.1 :: .punct ':' false :: field.2)
  | .reads field ty =>
    docTokens f.comment ++
      f.header (words "& self") (resultTokens (.punct '&' false :: ty.tokens)) ++
      Tokens.braces (words "& self ." ++ [.ident field])
  | .computes ty value =>
    docTokens f.comment ++ f.header (words "& self") (resultTokens ty.tokens) ++ Tokens.braces value
  | .assigns field ty =>
    f.header (words "& mut self ," ++ typedField (field, ty)) [] ++
      Tokens.braces (words "self ." ++
        [.ident field, .punct '=' false, .ident field, .punct ';' false])
  | .errors messages =>
    rawDoc "Problems reported while this view was generated." ++ words "# [ doc ( hidden ) ]" ++
      f.header [] (words "-> & 'static [ & 'static str ]") ++
      Tokens.braces (.punct '&' false ::
        Tokens.brackets (Tokens.commaSeparated (messages.map fun m => [stringToken m])))

end GeneratedFunction

namespace GeneratedRecord

def conversion (r : GeneratedRecord) : Tokens :=
  let source := .punct '&' false :: r.source.tokens
  words "impl :: core :: convert :: From <" ++ source ++ words "> for" ++ .ident r.name ::
    Tokens.braces (words "fn from" ++ Tokens.parens (words "source :" ++ source) ++
      words "-> Self \x7b Self :: from_source ( source ) \x7d")

def defaultValue (r : GeneratedRecord) : Tokens :=
  words "impl :: core :: default :: Default for" ++ .ident r.name ::
    words "\x7b fn default ( ) -> Self \x7b Self :: empty ( ) \x7d \x7d"

def deriveTokens (derives : List Path) : Tokens :=
  if derives.isEmpty then []
  else words "#" ++ Tokens.brackets (words "derive" ++
    Tokens.parens (Tokens.commaSeparated (derives.map Path.tokens)))

def tokens (r : GeneratedRecord) (derives : List Path) : Tokens :=
  docTokens (some ("View of \x60" ++ r.sourceName.text ++ "\x60.")) ++ deriveTokens derives ++
    r.access.tokens ++ words "struct" ++ .ident r.name ::
    Tokens.braces (Tokens.commaTerminated (r.fields.map typedField)) ++
    allowTokens "dead_code" "generated accessors may go unused" ++ words "impl" ++ .ident r.name ::
    Tokens.braces (r.functions.flatMap GeneratedFunction.tokens) ++
    (if r.convertible then r.conversion else []) ++
    if r.defaultable then r.defaultValue else []

end GeneratedRecord

end RecordViews
