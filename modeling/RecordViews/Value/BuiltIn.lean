import RecordViews.Value.Primitive

/-!
The converters that generated code can use without declaring any.
-/

namespace RecordViews

inductive BuiltIn where
  /-- Puts the type's default in the place of a missing value. -/
  | noneAsDefault
  | noneAsZero
  | stringify
deriving DecidableEq, Repr, Inhabited

namespace BuiltIn

def ofName? : String → Option BuiltIn
  | "NoneAsDefault" => some .noneAsDefault
  | "NoneAsZero" => some .noneAsZero
  | "Stringify" => some .stringify
  | _ => none

/-- What the converter makes of a value of type `p` that may be missing; `none` if it does not
convert such values. -/
def convert? (b : BuiltIn) (p : Primitive) (v : Option Value) : Option Value :=
  match b with
  | .noneAsDefault => some (v.getD p.zero)
  | .noneAsZero => if p.isNumber then some (v.getD p.zero) else none
  | .stringify => (v.bind (·.display?)).map .text

end BuiltIn

end RecordViews
