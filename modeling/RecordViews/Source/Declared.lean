import RecordViews.Extraction
import RecordViews.Model

/-!
What declarations say: the members of a record, the functions that read or assign one, and
documentation.
-/

namespace RecordViews

open Grammar

/-- The text of an attribute that documents, without the blank in front that a comment leaves. -/
def docLine? (a : Attribute) : Option String :=
  match a.path.single?, a.args with
  | some "doc", .value (some text) _ =>
    match text.toList with
    | ' ' :: rest => some (String.ofList rest)
    | _ => some text
  | _, _ => none

/-- The documentation among attributes, a line for each that documents. -/
def docComment? (as : List Attribute) : Option String :=
  let lines := as.filterMap docLine?
  if lines.isEmpty then none else some ("\n".intercalate lines)

def Member.ofField (f : Field) : Member :=
  { Member.field (unraw f.name) f.ty with
    modifier := Access.ofVisibility f.visibility, comment := docComment? f.attributes }

namespace SourceType

def nameOf (scope : Scope) (r : RecordItem) : TypeName :=
  ⟨scope, unraw r.name⟩

/-- The record that an item of the module `scope` declares. Only named fields are members. -/
def ofItem (scope : Scope) (r : RecordItem) : SourceType where
  name := nameOf scope r
  members := match r.fields with
    | .named fields _ => fields.map Member.ofField
    | .unnamed _ | .unit => []
  generic := r.isGeneric
  comment := docComment? r.attributes

end SourceType

/-- The header of a function of `owner`. -/
def Signature.ofItem (owner : TypeName) (f : FunctionItem) : Signature where
  container := owner
  name := unraw f.name
  receiver := f.receiver?.isSome
  params := f.paramTypes
  result := f.output.getD .unit
  comment := docComment? f.attributes

/-- A function that assigns a member, once the member is known. -/
structure Setter where
  owner : TypeName
  member : String
  function : String
  ty : Ty
deriving DecidableEq, Repr, Inhabited

def Setter.fits (s : Setter) (m : Member) : Bool :=
  m.name == s.member && m.ty == s.ty

namespace Grammar.FunctionItem

/-- How a function borrows its record if it is one that may access members: `some true` if it may
change it. -/
def borrow? (f : FunctionItem) : Option Bool :=
  if !f.generics.isEmpty || f.isAsync || f.isUnsafe then none
  else
    match f.receiver? with
    | some { reference := some _, mutable, ty := none } => some mutable
    | _ => none

/-- The member that a function `fn x(&self) -> T` reads. -/
def accessor? (f : FunctionItem) : Option Member :=
  match f.borrow?, f.paramTypes, f.output with
  | some false, [], some ty =>
    if ty.isStorable then
      some { Member.accessor (unraw f.name) ty with
        modifier := Access.ofVisibility f.visibility, comment := docComment? f.attributes }
    else none
  | _, _, _ => none

/-- The name without `set_` in front. -/
def assigned? (name : String) : Option String :=
  match name.toList with
  | 's' :: 'e' :: 't' :: '_' :: rest => some (String.ofList rest)
  | _ => none

/-- The member that a function `fn set_x(&mut self, value: T)` assigns. -/
def setter? (owner : TypeName) (f : FunctionItem) : Option Setter :=
  match f.borrow?, f.paramTypes, f.output with
  | some true, [ty], none =>
    (assigned? (unraw f.name)).map fun member => { owner, member, function := unraw f.name, ty }
  | _, _, _ => none

end Grammar.FunctionItem

end RecordViews
