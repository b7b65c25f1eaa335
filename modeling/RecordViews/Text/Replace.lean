/-!
Replacing one text by another, and the lines of a text.
-/

namespace RecordViews.Text

/-- Replaces the occurrences of a pattern that do not overlap, from the left; the first `skip`
characters are part of an occurrence already replaced. -/
def replaceFrom (pattern replacement : List Char) : Nat → List Char → List Char
  | _, [] => []
  | n + 1, _ :: rest => replaceFrom pattern replacement n rest
  | 0, c :: rest =>
    if pattern.isPrefixOf (c :: rest) then
      replacement ++ replaceFrom pattern replacement (pattern.length - 1) rest
    else c :: replaceFrom pattern replacement 0 rest

/-- The text with every occurrence of `pattern`, which is not empty, replaced. -/
def replaceAll (pattern replacement text : String) : String :=
  String.ofList (replaceFrom pattern.toList replacement.toList 0 text.toList)

/-- Every line, without its line feed; a text that ends in a line feed has no line behind it. -/
def linesOf : List Char → List (List Char)
  | [] => []
  | '\n' :: rest => [] :: linesOf rest
  | c :: '\n' :: rest => [c] :: linesOf rest
  | c :: rest =>
    match linesOf rest with
    | [] => [[c]]
    | l :: ls => (c :: l) :: ls

/-- A line without the carriage return that came before its line feed. -/
def dropReturn (line : List Char) : List Char :=
  if line.getLast? == some '\r' then line.dropLast else line

/-- The lines of a text. Both kinds of line end count; the last line may lack one, and keeps a
carriage return at its end. -/
def lines (text : String) : List String :=
  let s := text.toList
  let parts := linesOf s
  let complete := s.getLast? == some '\n'
  let strip (i : Nat) (line : List Char) : List Char :=
    if complete || i + 1 < parts.length then dropReturn line else line
  parts.mapIdx fun i line => String.ofList (strip i line)

end RecordViews.Text
