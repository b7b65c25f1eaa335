import RecordViews.Name

/-!
Messages about a round, in the order in which they come up.
-/

namespace RecordViews

inductive Severity where
  /-- A conflict that does no harm: a request was skipped. -/
  | warning
  /-- Something is wrong; the build should fail. -/
  | error
deriving DecidableEq, Repr, Inhabited

def Severity.word : Severity → String
  | .warning => "warning"
  | .error => "error"

structure Diagnostic where
  severity : Severity
  message : String
  origin : Option TypeName := none
  target : Option TypeName := none
deriving DecidableEq, Repr, Inhabited

namespace Diagnostic

def warning (origin target : TypeName) (message : String) : Diagnostic :=
  ⟨.warning, message, some origin, some target⟩

def error (origin target : TypeName) (message : String) : Diagnostic :=
  ⟨.error, message, some origin, some target⟩

def isError (d : Diagnostic) : Bool :=
  d.severity == .error

def display (d : Diagnostic) : String :=
  d.severity.word ++ ": " ++ d.message ++
    d.origin.elim "" fun origin => " (configured on " ++ origin.text ++ ")"

end Diagnostic

end RecordViews
