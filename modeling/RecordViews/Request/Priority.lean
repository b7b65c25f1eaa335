import RecordViews.Request

/-!
Which bearer generates the views, or the meta type, of a record: of those that ask, the one whose
name comes first.
-/

namespace RecordViews

/-- The earlier of two names; the first of two with one text. -/
def TypeName.earlier (a b : TypeName) : TypeName :=
  if b.before a then b else a

def TypeName.first? : List TypeName → Option TypeName
  | [] => none
  | a :: rest => some (rest.foldl earlier a)

namespace Bearer

def viewWinner? (bearers : List Bearer) (target : TypeName) : Option TypeName :=
  TypeName.first? ((bearers.filter (·.targets target)).map (·.name))

def metaWinner? (bearers : List Bearer) (target : TypeName) : Option TypeName :=
  TypeName.first? ((bearers.filter (·.describes target)).map (·.name))

end Bearer

end RecordViews
