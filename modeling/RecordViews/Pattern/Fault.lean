/-!
Why a text is no pattern.
-/

namespace RecordViews.Pattern

/-- The most bytes that a compiled pattern may take. -/
def sizeLimit : Nat := 10485760

inductive Fault where
  | malformed
  | tooLarge
deriving DecidableEq, Repr, Inhabited

def Fault.message : Fault → String
  | .malformed => "regex parse error"
  | .tooLarge => "Compiled regex exceeds size limit of " ++ toString sizeLimit ++ " bytes."

end RecordViews.Pattern
