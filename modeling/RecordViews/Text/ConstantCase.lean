import RecordViews.Text.Case
import RecordViews.Text.Category

/-!
Names of constants: the words of a name in upper case, joined by underscores. A new word starts
where something that is neither letter nor digit stands, where a capital follows a small letter, and
at the last capital of several before a small letter.
-/

namespace RecordViews.Text

inductive WordCase where
  | start | lower | upper
deriving DecidableEq, Repr, Inhabited

/-- Splits letters and digits into words; `done` is the word so far, last character first. -/
def caseWords : WordCase → List Char → List Char → List (List Char)
  | _, _, [] => []
  | _, done, [c] => [(c :: done).reverse]
  | mode, done, c :: next :: rest =>
    let after := if isLowercase c then .lower else if isUppercase c then .upper else mode
    if after = .lower && isUppercase next then
      (c :: done).reverse :: caseWords .start [] (next :: rest)
    else if mode = .upper && isUppercase c && isLowercase next then
      done.reverse :: caseWords .start [c] (next :: rest)
    else caseWords after (c :: done) (next :: rest)

def alphanumericRuns : List Char → List (List Char)
  | [] => [[]]
  | c :: rest =>
    match alphanumericRuns rest with
    | [] => [[c]]
    | run :: runs => if isAlphanumeric c then (c :: run) :: runs else [] :: run :: runs

def constantCase (name : String) : String :=
  let words := (alphanumericRuns name.toList).flatMap (caseWords .start [])
  "_".intercalate (words.map fun w => String.ofList (w.flatMap upper))

end RecordViews.Text
