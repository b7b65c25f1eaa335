import RecordViews.Pattern.Fault
import RecordViews.TypeText

/-!
What can go wrong, as causes; `message` puts each into words.
-/

namespace RecordViews

open Grammar (Ty)

/-- Why a request or a property of it cannot be carried out. -/
inductive ConfigurationFault where
  | generatedName (simple : String)
  | unknownType
  | genericType
  | viewWithoutAccess (view : TypeName)
  | metaWithoutAccess (view : TypeName)
  | unknownConfig (config : TypeName)
  | repeatedProperty (view : TypeName) (property : String)
  | propertyName (name : String)
  | readOnlySetter (property : String)
  | computedConverter (property : String)
  | computedProjection (property : String) (view : TypeName)
  | computedSetter (property : String)
deriving DecidableEq, Repr, Inhabited

namespace ConfigurationFault

def quoted (s : String) : String := "\"" ++ s ++ "\""

def message : ConfigurationFault → String
  | .generatedName simple =>
    "the generated name " ++ quoted simple ++ " is not a valid Rust identifier"
  | .unknownType => "the type is unknown"
  | .genericType => "generic types cannot be viewed"
  | .viewWithoutAccess view => "the view " ++ quoted view.text ++ " must not have access NONE"
  | .metaWithoutAccess view => "the meta type " ++ quoted view.text ++ " must not have access NONE"
  | .unknownConfig config => "the config type " ++ quoted config.text ++ " is unknown"
  | .repeatedProperty view property =>
    "the view " ++ quoted view.text ++ " defines the property " ++ quoted property ++
      " more than once"
  | .propertyName name =>
    "the property name " ++ quoted name ++ " is not a valid Rust identifier"
  | .readOnlySetter property =>
    "the property " ++ quoted property ++ " is read-only and cannot have a setter"
  | .computedConverter property =>
    "the property " ++ quoted property ++ " is computed by a function and cannot use a converter"
  | .computedProjection property view =>
    "the property " ++ quoted property ++
      " is computed by a function and cannot be projected into " ++ quoted view.text
  | .computedSetter property =>
    "the property " ++ quoted property ++ " is computed by a function and cannot have a setter"

end ConfigurationFault

/-- Why a function cannot give the value of a property. -/
inductive FunctionFault where
  | receiver
  | notOwned
  | otherType (expected : Ty)
  | wrongParameter (target : String) (result : Ty)
  | tooManyParameters (target : String) (result : Ty)
deriving DecidableEq, Repr, Inhabited

namespace FunctionFault

def shapes (name target : String) (result : Ty) : String :=
  "\"fn " ++ name ++ "() -> " ++ result.display ++ "\" or \"fn " ++ name ++ "(source: &" ++
    target ++ ") -> " ++ result.display ++ "\""

def message (name : String) : FunctionFault → String
  | .receiver =>
    "The property function \"" ++ name ++ "\" should be static; remove its self receiver."
  | .notOwned => "The property function \"" ++ name ++ "\" should return a valid owned type."
  | .otherType expected =>
    "The property function \"" ++ name ++ "\" should return a \"" ++ expected.display ++ "\" type."
  | .wrongParameter target result =>
    "The property function \"" ++ name ++ "\" has a wrong parameter. It should look like " ++
      shapes name target result ++ "."
  | .tooManyParameters target result =>
    "The property function \"" ++ name ++ "\" has too many parameters. It should look like " ++
      shapes name target result ++ "."

end FunctionFault

/-- Why files cannot be read or written, by the system's number. -/
inductive FileFault where
  | notFound
  | notADirectory
  | isADirectory
  | nameTooLong
  /-- A path leads out of the directory that it has to stay in. -/
  | outside
  /-- A store of units that turns a unit down. -/
  | refused
deriving DecidableEq, Repr, Inhabited

def FileFault.message : FileFault → String
  | .notFound => "No such file or directory (os error 2)"
  | .notADirectory => "Not a directory (os error 20)"
  | .isADirectory => "Is a directory (os error 21)"
  | .nameTooLong => "File name too long (os error 36)"
  | .outside => "a path led outside of the filesystem"
  | .refused => "refused"

inductive EmitFault where
  | file (path : String) (fault : FileFault)
  | shape (fault : Grammar.Fault)
deriving DecidableEq, Repr, Inhabited

def EmitFault.message : EmitFault → String
  | .file path fault => "I/O error at " ++ path ++ ": " ++ fault.message
  | .shape fault => "generated tokens are not a valid Rust file: " ++ fault.message

/-- Why a resolved view or meta type cannot be written. -/
inductive RenderFault where
  | identifier (name : String)
  | repeatedMethod (name : String)
  | repeatedConstant (name : String)
  | unreadable (property : String)
deriving DecidableEq, Repr, Inhabited

def identifierMessage (name : String) : String :=
  "'" ++ name ++ "' is not a valid Rust identifier"

def RenderFault.message : RenderFault → String
  | .identifier name => identifierMessage name
  | .repeatedMethod name => "method \x60" ++ name ++ "\x60 would be generated twice"
  | .repeatedConstant name => "constant \x60" ++ name ++ "\x60 would be generated twice"
  | .unreadable property => "the property \"" ++ property ++ "\" has no way to read its value"

/-- What can go wrong with views. -/
inductive Failure where
  | configuration (target : TypeName) (fault : ConfigurationFault)
  | function (name : String) (fault : FunctionFault)
  | pattern (text : String) (fault : Pattern.Fault)
  | access (word : String)
  | name (text : String)
  | identifier (name : String)
  | type (text : String)
  | render (view : TypeName) (fault : RenderFault)
  | emit (view : TypeName) (fault : EmitFault)
  | file (path : String) (fault : FileFault)
  /-- A setting of the wrong type, by its dotted name. -/
  | settings (key : String)
  | failed (messages : List String)
  /-- No failure of what was asked for: the run ends with it, and nobody is told anything else. -/
  | abort (text : String)
deriving DecidableEq, Repr, Inhabited

def Failure.ofName : NameFault → Failure
  | .invalid n => .identifier n
  | .abort text => .abort text

/-- The text that ends the run. -/
def Failure.abort? : Failure → Option String
  | .abort text => some text
  | _ => none

/-- Makes sure that a name can be written as an identifier. -/
def checkIdentifier (name : String) (invalid : Failure) : Except Failure Unit :=
  match identifier name with
  | .ok _ => .ok ()
  | .error (.invalid _) => .error invalid
  | .error (.abort text) => .error (.abort text)

def Failure.message : Failure → String
  | .configuration target fault =>
    "invalid view configuration for '" ++ target.text ++ "': " ++ fault.message
  | .function f fault => fault.message f
  | .pattern text fault => "invalid member pattern '" ++ text ++ "': " ++ fault.message
  | .access word =>
    "unknown access level '" ++ word ++
      "'; expected one of none, private, package, protected, public"
  | .name text => "invalid qualified name '" ++ text ++ "'"
  | .identifier segment => identifierMessage segment
  | .type text => "invalid type '" ++ text ++ "'"
  | .render view fault => "failed to render view '" ++ view.text ++ "': " ++ fault.message
  | .emit view fault => "failed to emit view '" ++ view.text ++ "': " ++ fault.message
  | .file path fault => "I/O error at " ++ path ++ ": " ++ fault.message
  | .settings key => "failed to load view_synth configuration: " ++ key
  | .failed messages =>
    "view generation reported " ++ toString messages.length ++ " error(s):\n" ++
      "\n".intercalate messages
  | .abort text => ConfigurationFault.quoted text ++ " is not a valid Ident"

end RecordViews
