/-!
The first element of a list that has come up before.
-/

namespace RecordViews

variable {α : Type} [DecidableEq α]

def firstRepeated? (seen : List α) : List α → Option α
  | [] => none
  | a :: rest => if a ∈ seen then some a else firstRepeated? (a :: seen) rest

end RecordViews
