import RecordViews.Repeated
import RecordViews.View

/-!
The identifiers that a property has in the generated record.
-/

namespace RecordViews

structure MemberNames where
  /-- The field, which also names parameters. -/
  field : String
  getter : String
  setter : String
deriving DecidableEq, Repr, Inhabited

namespace MemberNames

/-- Functions that every view may have. A getter of such a name gets another one. -/
def reserved : List String := ["empty", "new", "from_source", "view_errors"]

def getterOf (bare field : String) : Except NameFault String :=
  if reserved.contains bare then asIdentifier ("get_" ++ bare) else .ok field

/-- The identifiers of a property name. Those of the functions are put together from its text. -/
def ofName (name : String) : Except NameFault MemberNames := do
  let field ← identifier name
  let getter ← getterOf (unraw name) field
  return { field, getter, setter := ← asIdentifier ("set_" ++ unraw name) }

end MemberNames

structure Slot where
  property : Property
  names : MemberNames
deriving DecidableEq, Repr, Inhabited

namespace Slot

def functions (s : Slot) : List String :=
  (if s.property.hasGetter then [s.names.getter] else []) ++
    if s.property.hasSetter then [s.names.setter] else []

def repeatedFunction? (slots : List Slot) : Option String :=
  firstRepeated? MemberNames.reserved (slots.flatMap functions)

/-- The properties with their identifiers, or the first name that has none. -/
def ofProperties : List Property → Except NameFault (List Slot)
  | [] => .ok []
  | p :: rest => do
    let names ← MemberNames.ofName p.name
    return ⟨p, names⟩ :: (← ofProperties rest)

end Slot

end RecordViews
