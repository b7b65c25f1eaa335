import RecordViews.Diagnostic
import RecordViews.Property
import RecordViews.Request

/-!
Views and meta types that are ready to be written.
-/

namespace RecordViews

structure View where
  name : TypeName
  target : TypeName
  config : TypeName
  request : ViewRequest
  properties : List Property
  /-- The messages of the properties that were dropped. -/
  errors : List String := []
  comment : Option String := none
deriving DecidableEq, Repr, Inhabited

structure MetaType where
  name : TypeName
  target : TypeName
  access : Access
  /-- The member names, as declared. -/
  members : List String
deriving DecidableEq, Repr, Inhabited

end RecordViews
