import RecordViews.Access
import RecordViews.Name.Ordered

/-!
The declared records and their members, as far as views need to know them.
-/

namespace RecordViews

open Grammar (Ty)

inductive MemberKind where
  | field
  | accessor
deriving DecidableEq, Repr, Inhabited

structure Member where
  name : String
  ty : Ty
  modifier : Access := .everywhere
  kind : MemberKind
  /-- The accessor that reads the member, if it is not a field. -/
  getterName : Option String := none
  /-- The function of the record that assigns the member. -/
  setterName : Option String := none
  writable : Bool
  comment : Option String := none
deriving DecidableEq, Repr, Inhabited

namespace Member

def field (name : String) (ty : Ty) : Member :=
  { name, ty, kind := .field, writable := true }

def accessor (name : String) (ty : Ty) : Member :=
  { name, ty, kind := .accessor, getterName := some name, writable := false }

def withSetter (m : Member) (setter : String) : Member :=
  { m with setterName := some setter, writable := true }

end Member

/-- A declared record. -/
structure SourceType where
  name : TypeName
  members : List Member := []
  generic : Bool := false
  comment : Option String := none
deriving DecidableEq, Repr, Inhabited

namespace SourceType

def member? (t : SourceType) (name : String) : Option Member :=
  t.members.find? (·.name == name)

def addMember (t : SourceType) (m : Member) : SourceType :=
  { t with members := t.members ++ [m] }

end SourceType

/-- The records known in a round, in the order of their names. -/
structure Model where
  types : List SourceType := []
deriving DecidableEq, Repr, Inhabited

namespace Model

def find? (m : Model) (name : TypeName) : Option SourceType :=
  TypeName.findIn? SourceType.name name m.types

/-- Adds a record; it replaces one of the same name. -/
def insert (m : Model) (t : SourceType) : Model :=
  ⟨TypeName.insertIn SourceType.name t m.types⟩

def insertAll (m : Model) (ts : List SourceType) : Model :=
  ts.foldl insert m

def modify (m : Model) (name : TypeName) (f : SourceType → SourceType) : Model :=
  ⟨TypeName.modifyIn SourceType.name name f m.types⟩

end Model

end RecordViews
