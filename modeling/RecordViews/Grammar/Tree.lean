import RecordViews.Token.Basic

/-!
Types and paths as they are written. A type keeps apart what decides whether a view can hold it
and what it refers to; the rest of it is tokens.
-/

namespace RecordViews.Grammar

/-- One step of a path. `args` holds generic arguments with their brackets, and the tokens of an
argument list of a function trait; it is empty when nothing is written. -/
structure Segment where
  name : String
  args : Tokens := []
deriving DecidableEq, Repr, Inhabited

/-- A path; `leading` if it starts with `::`. -/
structure Path where
  leading : Bool := false
  segments : List Segment
deriving DecidableEq, Repr, Inhabited

def colons : Tokens := [.punct ':' true, .punct ':' false]

namespace Segment

def tokens (s : Segment) : Tokens :=
  .ident s.name :: s.args

end Segment

namespace Path

def ofNames (names : List String) : Path :=
  { segments := names.map ({ name := · }) }

def tokens (p : Path) : Tokens :=
  (if p.leading then colons else []) ++ ((p.segments.map Segment.tokens).intersperse colons).flatten

def isPlain (p : Path) : Bool :=
  p.segments.all (·.args.isEmpty)

def single? (p : Path) : Option String :=
  match p with
  | { leading := false, segments := [{ name, args := [] }] } => some name
  | _ => none

def lastName (p : Path) : String :=
  (p.segments.getLast?.map (·.name)).getD ""

def joined (p : Path) : String :=
  (if p.leading then "::" else "") ++ "::".intercalate (p.segments.map (·.name))

end Path

inductive Ty where
  | path (p : Path)
  | reference (lifetime : Option String) (mutable : Bool) (target : Ty)
  | paren (inner : Ty)
  | tuple (elements : Tokens)
  | never
  | inferred
  | implTrait (bounds : Tokens)
  /-- Bounds without a word in front; the last one is empty after a closing plus. -/
  | bounds (parts : List Tokens)
  | other (tokens : Tokens)
deriving DecidableEq, Repr, Inhabited

namespace Ty

def tokens : Ty → Tokens
  | .path p => p.tokens
  | .reference lifetime mutable target =>
    .punct '&' false :: (lifetime.elim [] Tokens.lifetime) ++
      (if mutable then [.ident "mut"] else []) ++ target.tokens
  | .paren inner => Tokens.parens inner.tokens
  | .tuple elements => Tokens.parens elements
  | .never => [.punct '!' false]
  | .inferred => [.ident "_"]
  | .implTrait parts => .ident "impl" :: parts
  | .bounds parts => (parts.intersperse [.punct '+' false]).flatten
  | .other tokens => tokens

def unit : Ty := .tuple []

/-- A field can hold values of the type: it is neither empty nor a reference nor left open. -/
def isStorable : Ty → Bool
  | .tuple elements => !elements.isEmpty
  | .never | .implTrait _ | .inferred | .reference .. => false
  | .paren inner => inner.isStorable
  | _ => true

end Ty

inductive AttributeArgs where
  | bare
  | list (d : Delimiter) (inner : Tokens)
  /-- A value; `string` is its text when it is a string literal. -/
  | value (string : Option String) (tokens : Tokens)
deriving DecidableEq, Repr, Inhabited

/-- An attribute, `inner` if it is about what encloses it. -/
structure Attribute where
  inner : Bool := false
  path : Path
  args : AttributeArgs
deriving DecidableEq, Repr, Inhabited

namespace Attribute

def argTokens : AttributeArgs → Tokens
  | .bare => []
  | .list d inner => Tokens.enclose d inner
  | .value _ tokens => .punct '=' false :: tokens

def tokens (a : Attribute) : Tokens :=
  .punct '#' false :: (if a.inner then [.punct '!' false] else []) ++
    Tokens.brackets (a.path.tokens ++ argTokens a.args)

def outerTokens (as : List Attribute) : Tokens :=
  (as.filter (!·.inner)).flatMap tokens

def innerTokens (as : List Attribute) : Tokens :=
  (as.filter (·.inner)).flatMap tokens

end Attribute

end RecordViews.Grammar
