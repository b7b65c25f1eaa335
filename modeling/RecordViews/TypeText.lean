import RecordViews.Grammar.Items
import RecordViews.Name
import RecordViews.Text.Replace
import RecordViews.Token.Printer

/-!
Types as they appear in messages, types that name a generated record, and references to a record.
-/

namespace RecordViews.Grammar.Ty

/-- The spacing of printed tokens that messages do without, in the order it is taken out. -/
def tidying : List (String × String) :=
  [(" :: ", "::"), (" < ", "<"), (" <", "<"), (" >", ">"), ("& ", "&"), (" ,", ",")]

def display (t : Ty) : String :=
  tidying.foldl (fun text (pattern, replacement) => Text.replaceAll pattern replacement text)
    t.tokens.render

def ofText? (text : String) : Option Ty :=
  (readText readType text).toOption

/-- The type naming a record as seen from a module, or the segment that cannot be written. -/
def ofName (name : TypeName) (scope : Scope) : Except NameFault Ty :=
  (name.pathFrom scope).map .path

/-- The type is a shared reference to the record `target`, its path read in `scope`. -/
def isSharedRefTo (t : Ty) (target : TypeName) (scope : Scope) : Bool :=
  match t with
  | .reference _ false (.path p) => TypeName.resolve? scope p == some target
  | _ => false

end RecordViews.Grammar.Ty
