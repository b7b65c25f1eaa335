import RecordViews.Name.Ordered

/-!
The names generated so far. The set only grows and is shared by rounds.
-/

namespace RecordViews

structure GeneratedNames where
  names : List TypeName := []
deriving DecidableEq, Repr, Inhabited

namespace GeneratedNames

def contains (g : GeneratedNames) (name : TypeName) : Bool :=
  g.names.any fun n => n.text == name.text

/-- Adds a name; one that is there stays as it is. -/
def insert (g : GeneratedNames) (name : TypeName) : GeneratedNames :=
  if g.contains name then g else ⟨TypeName.insertIn id name g.names⟩

def ofList (names : List TypeName) : GeneratedNames :=
  names.foldl insert {}

end GeneratedNames

end RecordViews
