import RecordViews.Grammar.Item
import RecordViews.Grammar.Reader

/-!
Types, expressions, patterns, statements and items contain one another. `Nested` holds the readers
for what is one level down; the readers of each kind are given it, and `Nested.level` in
`Grammar.Items` ties the knot for a bounded depth. Here are also attributes, which occur
everywhere.
-/

namespace RecordViews.Grammar

/-- What matters about an expression once its tokens are known. -/
inductive Form where
  | plain
  | range
  /-- A comparison; no other one follows it. -/
  | comparison
  /-- Ends in a block, so that neither a comma nor a semicolon must follow. -/
  | block
  | bracedMacro
  /-- Kept as it is written. -/
  | written
deriving DecidableEq, Repr, Inhabited

structure Expr where
  tokens : Tokens
  form : Form := .plain
  /-- What the expression starts with is kept as it is written, so attributes cannot be put in
  front of it. -/
  bare : Bool := false
deriving Repr, Inhabited

/-- The expression with attributes in front. A range is put in parentheses for that. -/
def Expr.withAttributes (attributes : Tokens) (e : Expr) : Expr :=
  if attributes.isEmpty || e.bare then e
  else
    match e.form with
    | .range => { e with tokens := attributes ++ Tokens.parens e.tokens }
    | _ => { e with tokens := attributes ++ e.tokens }

/-- What matters about a pattern once its tokens are known. -/
inductive PatternForm where
  | plain
  /-- A range, `isOpen` if it lacks an end. -/
  | range (isOpen : Bool)
  /-- Kept as it is written. -/
  | written
deriving DecidableEq, Repr, Inhabited

structure Pattern where
  tokens : Tokens
  form : PatternForm := .plain
deriving Repr, Inhabited

def Pattern.withAttributes (attributes : Tokens) (p : Pattern) : Tokens :=
  match p.form with
  | .plain => attributes ++ p.tokens
  | .range _ => if attributes.isEmpty then p.tokens else attributes ++ Tokens.parens p.tokens
  | .written => p.tokens

inductive BoundForm where
  | lifetime | captured | trait
deriving DecidableEq, Repr, Inhabited

/-- What else than plain traits and lifetimes a bound may be. -/
structure BoundRules where
  /-- A list of captured parameters. -/
  captures : Bool := false
  constant : Bool := false
deriving DecidableEq, Repr, Inhabited

inductive Precedence where
  /-- Leaving a function or loop with a value. -/
  | jump
  | assign | range | or | and | binding | compare | bitOr | bitXor | bitAnd | shift | sum | product
  | cast
deriving DecidableEq, Repr, Inhabited

namespace Precedence

def rank : Precedence → Nat
  | jump => 0
  | assign => 1
  | range => 2
  | or => 3
  | and => 4
  | binding => 5
  | compare => 6
  | bitOr => 7
  | bitXor => 8
  | bitAnd => 9
  | shift => 10
  | sum => 11
  | product => 12
  | cast => 13

def atLeast (p base : Precedence) : Bool := base.rank ≤ p.rank

end Precedence

/-- Readers for what occurs one level down. -/
structure Nested where
  /-- A type; the flag allows bounds joined by `+`. -/
  ty : Bool → Reader Ty
  bound : BoundRules → Reader (BoundForm × Tokens)
  expr : Bool → Reader Expr
  /-- The operand of a sign or reference. -/
  operand : Bool → Reader Expr
  /-- What operators that bind at least so tightly make of their left operand. -/
  operators : Bool → Precedence → Expr → Reader Expr
  /-- An expression that a block ends: the body of a match arm, or a statement. -/
  arm : Reader Expr
  pattern : Reader Pattern
  /-- A pattern that may have alternatives. -/
  patterns : Reader Pattern
  statements : Reader Tokens
  /-- The named fields of a record, with their braces. -/
  fields : Reader Fields
  /-- An item behind its attributes, given the stream that they start. -/
  item : Stream → List Attribute → Reader Item
  /-- The tree of a use declaration; `none` if one of its paths starts at a root. -/
  useTree : Bool → Reader (Option Tokens)

def Nested.none : Nested :=
  let deep {α : Type} : Reader α := refuse "nesting too deep"
  { ty := fun _ => deep, bound := fun _ => deep, expr := fun _ => deep, operand := fun _ => deep,
    operators := fun _ _ _ => deep, arm := deep, pattern := deep, patterns := deep,
    statements := deep, fields := deep, item := fun _ _ => deep, useTree := fun _ => deep }

def followedBy (a b : Reader Tokens) : Reader Tokens := do
  return (← a) ++ (← b)

/-- Does `r` and gives its tokens if the stream satisfies `p`, and nothing otherwise. -/
def whenSeen (p : Stream → Bool) (r : Reader Tokens) : Reader Tokens := do
  if ← sees p then r else return []

/-- A group whose contents are read as parts with commas between them. -/
def commaGroup (d : Delimiter) (part : Reader Tokens) : Reader Tokens := do
  return Tokens.enclose d (withCommas (← group d (commaList part)))

def groupOf (d : Delimiter) (inner : Reader Tokens) : Reader Tokens := do
  return Tokens.enclose d (← group d inner)

namespace Stream

def second (p : Stream → Bool) (s : Stream) : Bool := p s.next

def third (p : Stream → Bool) (s : Stream) : Bool := p s.next.next

def isOpening : Stream → Bool
  | ⟨.opening _, _⟩ :: _ => true
  | _ => false

end Stream

def lifetime? : Reader (Option String) := do
  if ← sees Stream.isLifetime then return some (← lifetime) else return none

def stringLiteral? : Reader Tokens := do
  return ((← optional stringLiteral).map fun text => [.literal text]).getD []

/-- A path of words without arguments; words that name a root are allowed. -/
def plainPath : Reader Path := do
  let leading ← mark? "::"
  let isStep (s : Stream) : Bool := s.isIdent || s.word?.any pathRoots.contains
  if !(← sees isStep) then
    let _ ← ident
    expected "expected identifier"
  let first ← anyWord
  let names ← loop [first] fun names => do
    if !(← sees (Stream.isMark "::")) then return (names, false)
    let _ ← mark "::"
    if ← sees isStep then return ((← anyWord) :: names, true)
    expected "expected path segment after `::`"
  return { Path.ofNames names.reverse with leading := !leading.isEmpty }

def attributeBody (g : Nested) (inner : Bool) : Reader Attribute := do
  let path ←
    if ← sees (Stream.isWord "unsafe") then
      let _ ← word "unsafe"
      pure (Path.ofNames ["unsafe"])
    else plainPath
  if ← sees Stream.isOpening then
    let (d, tokens) ← anyGroup
    return { inner, path, args := .list d tokens }
  if ← sees (Stream.isMark "=") then
    let _ ← mark "="
    let whole : Reader Tokens := do
      let ts ← literal
      if ← atEnd then return ts else expected "expected end"
    match ← optional whole with
    | some ts =>
      let string := match ts with
        | [.literal text] => Text.stringValue? text
        | _ => .none
      return { inner, path, args := .value string ts }
    | none =>
      if ← sees fun s => s.isMark "#" && s.second (Stream.isOpen .bracket) then
        expected "unexpected attribute inside of attribute"
      return { inner, path, args := .value .none (← g.expr true).tokens }
  return { inner, path, args := .bare }

def outerAttributes (g : Nested) : Reader (List Attribute) := do
  let found ← loop [] fun done => do
    if !(← sees (Stream.isMark "#")) then return (done, false)
    let _ ← mark "#"
    return ((← group .bracket (attributeBody g false)) :: done, true)
  return found.reverse

def innerAttributes (g : Nested) : Reader (List Attribute) := do
  let isInner (s : Stream) : Bool := s.isMark "#" && s.second (Stream.isMark "!")
  let found ← loop [] fun done => do
    if !(← sees isInner) then return (done, false)
    let _ ← mark "#"
    let _ ← mark "!"
    return ((← group .bracket (attributeBody g true)) :: done, true)
  return found.reverse

def attributeTokens (g : Nested) : Reader Tokens := do
  return (← outerAttributes g).flatMap Attribute.tokens

def block (g : Nested) : Reader Tokens :=
  groupOf .brace g.statements

def bodyOf (g : Nested) : Reader (List Attribute × Tokens) :=
  group .brace do
    let attributes ← innerAttributes g
    return (attributes, ← g.statements)

def body (g : Nested) : Reader Tokens := do
  let (attributes, statements) ← bodyOf g
  return Tokens.braces (attributes.flatMap Attribute.tokens ++ statements)

end RecordViews.Grammar
