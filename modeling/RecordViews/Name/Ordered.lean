import RecordViews.Name

/-!
Lists kept in the order of the names of their elements, each text once. Two names of one text
count as the same.
-/

namespace RecordViews.TypeName

variable {α : Type}

def findIn? (key : α → TypeName) (name : TypeName) (entries : List α) : Option α :=
  entries.find? fun a => (key a).text == name.text

/-- Puts an element in its place; it replaces one of the same name. -/
def insertIn (key : α → TypeName) (a : α) : List α → List α
  | [] => [a]
  | b :: rest =>
    if (key a).before (key b) then a :: b :: rest
    else if (key b).before (key a) then b :: insertIn key a rest
    else a :: rest

def modifyIn (key : α → TypeName) (name : TypeName) (f : α → α) (entries : List α) : List α :=
  entries.map fun a => if (key a).text == name.text then f a else a

/-- Sorts by name; elements of one name keep their order. -/
def sortBy (key : α → TypeName) (entries : List α) : List α :=
  entries.mergeSort fun a b => !(key b).before (key a)

end RecordViews.TypeName
