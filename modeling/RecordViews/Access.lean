import RecordViews.Grammar.Item

/-!
How far generated items can be seen, from not generated at all to visible everywhere.
-/

namespace RecordViews

inductive Access where
  /-- The item is not generated. -/
  | none
  /-- Visible in its own module: the word `private`. -/
  | module
  /-- Visible in the whole package: the word `package`. -/
  | package
  /-- Visible in the parent module: the word `protected`. -/
  | parent
  | everywhere
deriving DecidableEq, Repr, Inhabited

namespace Access

def all : List Access := [.none, .module, .package, .parent, .everywhere]

def word : Access → String
  | .none => "none"
  | .module => "private"
  | .package => "package"
  | .parent => "protected"
  | .everywhere => "public"

def rank : Access → Nat
  | .none => 0
  | .module => 1
  | .package => 2
  | .parent => 3
  | .everywhere => 4

def isNone : Access → Bool
  | .none => true
  | _ => false

/-- Reads the word of a level; only ASCII letters are equal in both cases. -/
def ofWord? (s : String) : Option Access :=
  all.find? fun a => s.toList.map Char.toLower == a.word.toList

def tokens : Access → Tokens
  | .none | .module => []
  | .package => .ident "pub" :: Tokens.parens [.ident "crate"]
  | .parent => .ident "pub" :: Tokens.parens [.ident "super"]
  | .everywhere => [.ident "pub"]

def ofVisibility : Grammar.Visibility → Access
  | .everywhere => .everywhere
  | .inherited => .module
  | .restricted _ path => if path.single? = some "super" then .parent else .package

end Access

end RecordViews
