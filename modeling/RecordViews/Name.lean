import RecordViews.Grammar.Tree
import RecordViews.Token.Identifier

/-!
Qualified names: a module, as the words that lead to it, and a simple name. Names are ordered by
the text that joins them with `::`; `resolve?` reads a path written in some module, and `pathFrom`
writes the path by which a module names a type.
-/

namespace RecordViews

/-- The words that lead to a module. -/
abbrev Scope := List String

structure TypeName where
  module : Scope
  simple : String
deriving DecidableEq, Repr, Inhabited

namespace TypeName

/-- The segments joined by `::`. -/
def text (n : TypeName) : String :=
  String.join (n.module.map (· ++ "::")) ++ n.simple

/-- The order of names is that of their texts. -/
def before (a b : TypeName) : Bool :=
  a.text < b.text

/-- Splits at every `::`, from the left. -/
def splitColons : List Char → List (List Char)
  | [] => [[]]
  | ':' :: ':' :: rest => [] :: splitColons rest
  | c :: rest =>
    match splitColons rest with
    | [] => [[c]]
    | w :: ws => (c :: w) :: ws

/-- The name of a list of segments, the last of which is the simple name. -/
def ofSegments? (segments : List String) : Option TypeName :=
  segments.getLast?.map fun simple => ⟨segments.dropLast, simple⟩

/-- Reads a name from its text. Blanks around a segment do not count; no segment may be empty. -/
def ofText? (text : String) : Option TypeName :=
  let segments := (splitColons text.toList).map fun s => String.ofList (Text.trim s)
  if segments.any (·.isEmpty) then none else ofSegments? segments

def sibling (n : TypeName) (simple : String) : TypeName :=
  { n with simple }

/-- The same simple name in another module. -/
def relocate (n : TypeName) (module : Scope) : TypeName :=
  { n with module }

/-- The module that a type of this name would be if it were one. -/
def asScope (n : TypeName) : Scope :=
  n.module ++ [n.simple]

/-- The way up from a module; there is none from the outermost. -/
def parent? (s : Scope) : Option Scope :=
  if s.isEmpty then none else some s.dropLast

def firstStep? (scope : Scope) (step : String) : Option Scope :=
  if step == "crate" then some ["crate"]
  else if step == "self" then some scope
  else if step == "super" then parent? scope
  else some (scope ++ [step])

/-- The place that a later step leads to: only `super` is special there. -/
def nextStep? (here : Scope) (step : String) : Option Scope :=
  if step == "super" then parent? here else some (here ++ [step])

/-- Follows a path from a module. -/
def follow? (scope : Scope) : List String → Option Scope
  | [] => none
  | first :: rest => (firstStep? scope first).bind fun here => rest.foldlM nextStep? here

/-- The name that a path written in `scope` stands for. A path with generic arguments stands for
none. -/
def resolve? (scope : Scope) (path : Grammar.Path) : Option TypeName :=
  if path.isPlain then (follow? scope (path.segments.map (·.name))).bind ofSegments? else none

/-- The segments by which code in `scope` names the type: the simple name in its own module, and
all of them elsewhere. -/
def segmentsFrom (n : TypeName) (scope : Scope) : List String :=
  if n.module = scope then [n.simple] else n.module ++ [n.simple]

/-- Writes each segment as an identifier, or gives the first that cannot be one. -/
def writeSegments : List String → Except NameFault (List String)
  | [] => .ok []
  | s :: rest => do
    let written ← segment s
    return written :: (← writeSegments rest)

/-- The path by which code in `scope` names the type, or the segment that cannot be written. -/
def pathFrom (n : TypeName) (scope : Scope) : Except NameFault Grammar.Path :=
  (writeSegments (n.segmentsFrom scope)).map Grammar.Path.ofNames

end TypeName

end RecordViews
