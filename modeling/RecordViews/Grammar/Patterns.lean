import RecordViews.Grammar.Types
import RecordViews.Token.Number

/-!
Reading field names and patterns.
-/

namespace RecordViews.Grammar

inductive FieldName where
  | named (name : String)
  | numbered (n : Nat)
deriving DecidableEq, Repr, Inhabited

def FieldName.tokens : FieldName → Tokens
  | .named name => [.ident name]
  | .numbered n => [.literal (toString n)]

def FieldName.isNamed : FieldName → Bool
  | .named _ => true
  | .numbered _ => false

/-- The number of a field that a literal gives; its base and underscores are not kept. -/
def fieldNumber (text : String) : Except Fault FieldName :=
  match WholeNumber.ofLiteral? text with
  | none => .error (.rule "expected integer literal")
  | some n =>
    if !n.suffix.isEmpty then .error (.rule "expected unsuffixed integer")
    else if 4294967296 ≤ n.value then .error (.rule "number too large to fit in target type")
    else .ok (.numbered n.value)

def fieldName : Reader FieldName := do
  if ← sees Stream.isIdent then return .named (← ident)
  let isWhole (text : String) : Bool := (WholeNumber.ofLiteral? text).isSome
  taking fun s =>
    match s with
    | ⟨.literal text, _⟩ :: rest =>
      if isWhole text then (fieldNumber text).map (·, rest)
      else .error (.expected "expected identifier or integer" false)
    | ⟨.punct '-' _, _⟩ :: ⟨.literal text, _⟩ :: _ =>
      if isWhole text then
        (fieldNumber text).bind fun _ => .error (.rule "invalid digit found in string")
      else .error (.expected "expected identifier or integer" false)
    | _ => .error (.expected "expected identifier or integer" s.atEnd)

def rangeMarks : Reader Tokens := do
  if ← sees (Stream.isMark "..=") then mark "..="
  else if ← sees (Stream.isMark "...") then expectedOneOf ["`..=`"]
  else if ← sees (Stream.isMark "..") then mark ".."
  else expectedOneOf ["`..`"]

/-- The marks between the ends of a range in a pattern. Three dots stand for a closed range. -/
def patternRangeMarks : Reader Tokens := do
  if ← sees (Stream.isMark "..=") then mark "..="
  else if ← sees (Stream.isMark "...") then
    let _ ← mark "..."
    return Token.operator "..=".toList
  else mark ".."

/-- A range of two marks includes no upper end, so that it may lack one. -/
def isHalfOpen (marks : Tokens) : Bool :=
  marks.length == 2

/-- An end of a range in a pattern; `none` where the pattern ends. -/
def patternEnd? (g : Nested) : Reader (Option Tokens) := do
  let isStop (s : Stream) : Bool :=
    s.atEnd || s.isMark "|" || s.isMark "=" || (s.isMark ":" && !s.isMark "::") || s.isMark "," ||
      s.isMark ";" || s.isWord "if"
  if ← sees isStop then return none
  if ← sees Stream.isLiteral then return some (← literal)
  if ← sees fun s => s.isIdent || s.isMark "::" || s.isMark "<" || s.isPathRoot then
    match ← qualifiedPath g true with
    | .inl path => return some path.tokens
    | .inr tokens => return some tokens
  if ← sees (Stream.isWord "const") then return some (← followedBy (word "const") (body g))
  expectedOneOf
    ["literal", "identifier", "`::`", "`<`", "`self`", "`Self`", "`super`", "`crate`", "`const`"]

def rangePattern (g : Nested) (start : Option Tokens) : Reader Pattern := do
  let marks ← if start.isSome then patternRangeMarks else rangeMarks
  let last ← patternEnd? g
  if last.isNone && !isHalfOpen marks then expected "expected range upper bound"
  let tokens := start.getD [] ++ marks ++ last.getD []
  if start.isNone && last.isNone then return { tokens }
  return { tokens, form := .range (start.isNone || last.isNone) }

def patternGroup (d : Delimiter) (part : Reader Pattern) : Reader Tokens :=
  commaGroup d (Pattern.tokens <$> part)

/-- The pattern of a field, behind its attributes. A boxed one is kept as it is written. -/
def fieldPattern (g : Nested) : Reader Tokens := do
  let start ← here
  let isBoxed ← sees (Stream.isWord "box")
  let front ← followedBy (word? "box") (followedBy (word? "ref") (word? "mut"))
  if !front.isEmpty then
    let name ← ident
    if isBoxed then return ← writtenSince start
    return front ++ [.ident name]
  let name ← fieldName
  if !name.isNamed || (← sees (Stream.isMark ":")) then
    return name.tokens ++ (← mark ":") ++ (← g.patterns).tokens
  return name.tokens

/-- The fields of a record pattern; two dots leave out further ones. -/
def fieldPatterns (g : Nested) : Reader Tokens :=
  groupOf .brace <| loop [] fun done => do
    if ← atEnd then return (done, false)
    let attributes ← attributeTokens g
    if ← sees (Stream.isMark "..") then return (done ++ attributes ++ (← mark ".."), false)
    let field ← fieldPattern g
    if ← atEnd then return (done ++ attributes ++ field, false)
    return (done ++ attributes ++ field ++ (← mark ","), true)

def pathPattern (g : Nested) : Reader Pattern := do
  let found ← qualifiedPath g true
  if let .inl path := found then
    if ← sees (isMacroCall path) then return { tokens := ← macroCall path }
  let path := match found with
    | .inl path => path.tokens
    | .inr tokens => tokens
  if ← sees (Stream.isOpen .brace) then return { tokens := path ++ (← fieldPatterns g) }
  if ← sees (Stream.isOpen .paren) then
    return { tokens := path ++ (← patternGroup .paren g.patterns) }
  if ← sees (Stream.isMark "..") then return ← rangePattern g (some path)
  return { tokens := path }

/-- A name that takes the value, perhaps only if it matches a further pattern. -/
def namePattern (g : Nested) : Reader Tokens := do
  let front ← followedBy (word? "ref") (word? "mut")
  let name ← if ← sees (Stream.isWord "self") then anyWord else ident
  let at_ ← mark? "@"
  if at_.isEmpty then return front ++ [.ident name]
  return front ++ .ident name :: at_ ++ (← g.pattern).tokens

def sliceElement (g : Nested) : Reader Pattern := do
  let p ← g.patterns
  if p.form == .range true then
    refuse "range pattern is not allowed unparenthesized inside slice pattern"
  return p

def patternStarts : List String :=
  ["identifier", "`::`", "`<`", "`_`", "literal", "`const`", "`ref`", "`mut`", "`&`",
   "parentheses", "square brackets", "`..`"]

def Stream.isPathPattern (s : Stream) : Bool :=
  (s.isIdent && (s.second (Stream.isMark "::") || s.second (Stream.isMark "!") ||
      s.second (Stream.isOpen .brace) || s.second (Stream.isOpen .paren) ||
      s.second (Stream.isMark ".."))) ||
    (s.isWord "self" && s.second (Stream.isMark "::")) || s.isMark "::" || s.isMark "<" ||
    ["Self", "super", "crate"].any s.isWord

def patternOf (g : Nested) : Reader Pattern := do
  let plain (r : Reader Tokens) : Reader Pattern := return { tokens := ← r }
  if ← sees Stream.isPathPattern then return ← pathPattern g
  if ← sees (Stream.isWord "_") then return ← plain (word "_")
  if ← sees (Stream.isWord "box") then
    let tokens ← written do
      let _ ← word "box"
      g.pattern
    return { tokens, form := .written }
  if ← sees fun s => s.isMark "-" || s.isLiteral || s.isWord "const" then
    let start ← patternEnd? g
    if ← sees (Stream.isMark "..") then return ← rangePattern g start
    return { tokens := start.getD [] }
  if ← sees fun s => s.isIdent || ["ref", "mut", "self"].any s.isWord then
    return ← plain (namePattern g)
  if ← sees (Stream.isMark "&") then
    return ← plain do return (← mark "&") ++ (← word? "mut") ++ (← g.pattern).tokens
  if ← sees (Stream.isOpen .paren) then return ← plain (patternGroup .paren g.patterns)
  if ← sees (Stream.isOpen .bracket) then
    return ← plain (patternGroup .bracket (sliceElement g))
  if ← sees fun s => s.isMark ".." && !s.isMark "..." then return ← rangePattern g none
  expectedOneOf patternStarts

def patternsOf (g : Nested) : Reader Pattern := do
  let isBar (s : Stream) : Bool := s.isMark "|" && !s.isMark "||" && !s.isMark "|="
  let front ← mark? "|"
  let first ← g.pattern
  if front.isEmpty && !(← sees isBar) then return first
  let tokens ← loop (front ++ first.tokens) fun done => do
    if !(← sees isBar) then return (done, false)
    return (done ++ (← mark "|") ++ (← g.pattern).tokens, true)
  return { tokens }

end RecordViews.Grammar
