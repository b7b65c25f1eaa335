import RecordViews.Token.Identifier
import RecordViews.Token.Printer

/-!
Reading tokens. A reader takes tokens off the front of a stream, or fails with what it expected.
Groups are part of the flat stream: inside one, the closing token is where input ends. A group may
be left before its end; that is an error too, but one that counts only if there is no other.
-/

namespace RecordViews.Grammar

inductive Fault where
  /-- Something else was expected, at the end of the group or before it. -/
  | expected (what : String) (atEnd : Bool)
  /-- Nothing that starts here is allowed, at the end of the group or before it. -/
  | unexpected (atEnd : Bool)
  | keyword (word : String)
  /-- Tokens are left over in a group of the given kind, or behind everything. -/
  | leftover (group : Option Delimiter)
  | tokens
  /-- A string literal that is read as source ends in a word. -/
  | wordAfterString (word : String)
  /-- A rule of the language beyond its shape. -/
  | rule (text : String)
deriving DecidableEq, Repr, Inhabited

def Fault.message : Fault → String
  | .expected what true => "unexpected end of input, " ++ what
  | .expected what false => what
  | .unexpected true => "unexpected end of input"
  | .unexpected false => "unexpected token"
  | .keyword word => "expected identifier, found keyword `" ++ word ++ "`"
  | .leftover none => "unexpected token"
  | .leftover (some d) => "unexpected token, expected `" ++ d.closeText ++ "`"
  | .tokens => "cannot parse string into token stream"
  | .wordAfterString word => "unexpected suffix `" ++ word ++ "` on string literal"
  | .rule text => text

abbrev Stream := List Placed

/-- What a reader works on: the tokens to come, and the kind of the first group that was left before
its end. -/
structure Input where
  stream : Stream
  unread : Option Delimiter := none
deriving Repr, Inhabited

abbrev Reader (α : Type) := StateT Input (Except Fault) α

namespace Stream

/-- Tokens that come from no text. The brackets of generic arguments become marks again. -/
def ofTokens (ts : Tokens) : Stream :=
  ts.map fun
    | .opening .angle => ⟨.punct '<' false, 0⟩
    | .closing .angle => ⟨.punct '>' false, 0⟩
    | t => ⟨t, 0⟩

def atEnd : Stream → Bool
  | [] => true
  | p :: _ => match p.token with
    | .closing _ => true
    | _ => false

def word? : Stream → Option String
  | ⟨.ident name, _⟩ :: _ => some name
  | _ => none

def isWord (word : String) (s : Stream) : Bool :=
  s.word? == some word

def isIdent (s : Stream) : Bool :=
  match s.word? with
  | some name => !isKeyword name
  | none => false

/-- The marks of an operator, each but the last joint with the next. -/
def isMarks : List Char → Stream → Bool
  | [], _ => true
  | [c], ⟨.punct d _, _⟩ :: _ => c == d
  | c :: cs, ⟨.punct d joint, _⟩ :: rest => c == d && joint && isMarks cs rest
  | _ :: _, _ => false

def isMark (operator : String) (s : Stream) : Bool :=
  isMarks operator.toList s

def isOpen (d : Delimiter) : Stream → Bool
  | ⟨.opening e, _⟩ :: _ => d == e
  | _ => false

def isLifetime : Stream → Bool
  | ⟨.punct '\'' true, _⟩ :: ⟨.ident _, _⟩ :: _ => true
  | _ => false

def isNumber (text : String) : Bool :=
  match text.toList with
  | c :: _ => Lexer.isDigit c
  | [] => false

/-- A literal; truth values and numbers with a minus sign count. -/
def isLiteral : Stream → Bool
  | ⟨.literal _, _⟩ :: _ => true
  | ⟨.ident name, _⟩ :: _ => name == "true" || name == "false"
  | ⟨.punct '-' _, _⟩ :: ⟨.literal text, _⟩ :: _ => isNumber text
  | _ => false

/-- The stream after the group that is open, or after `depth` groups inside it as well. -/
def afterGroup : Stream → Nat → Stream
  | [], _ => []
  | p :: rest, depth =>
    match p.token, depth with
    | .opening _, d => afterGroup rest (d + 1)
    | .closing _, 0 => rest
    | .closing _, d + 1 => afterGroup rest d
    | _, d => afterGroup rest d

/-- The stream without its first group, lifetime or single token. -/
def next (s : Stream) : Stream :=
  if s.isLifetime then s.drop 2
  else
    match s with
    | ⟨.opening _, _⟩ :: rest => afterGroup rest 0
    | ⟨.closing _, _⟩ :: _ => s
    | _ :: rest => rest
    | [] => []

end Stream

def taking {α : Type} (f : Stream → Except Fault (α × Stream)) : Reader α := fun i =>
  (f i.stream).map fun (a, rest) => (a, { i with stream := rest })

def expected {α : Type} (what : String) : Reader α := fun i =>
  .error (.expected what i.stream.atEnd)

/-- Fails with a list of what may come at this place. -/
def expectedOneOf {α : Type} (choices : List String) : Reader α := fun i =>
  .error <| match choices with
    | [] => .unexpected i.stream.atEnd
    | [a] => .expected ("expected " ++ a) i.stream.atEnd
    | [a, b] => .expected ("expected " ++ a ++ " or " ++ b) i.stream.atEnd
    | _ => .expected ("expected one of: " ++ ", ".intercalate choices) i.stream.atEnd

def refuse {α : Type} (text : String) : Reader α := fun _ => .error (.rule text)

def sees (p : Stream → Bool) : Reader Bool := fun i => .ok (p i.stream, i)

def atEnd : Reader Bool := sees Stream.atEnd

def here : Reader Stream := fun i => .ok (i.stream, i)

def place : Reader Nat := fun i => .ok ((i.stream.head?.map (·.left)).getD 0, i)

/-- The tokens that have been read since the stream was `start`, as they are written. -/
def writtenSince (start : Stream) : Reader Tokens := fun i =>
  .ok ((start.take (start.length - i.stream.length)).map (·.token), i)

def written {α : Type} (r : Reader α) : Reader Tokens := do
  let start ← here
  let _ ← r
  writtenSince start

/-- Reads without taking from the stream; `none` if that fails. -/
def ahead {α : Type} (r : Reader α) : Reader (Option α) := fun i =>
  match r i with
  | .ok (a, _) => .ok (some a, i)
  | .error _ => .ok (none, i)

/-- Reads if that succeeds and leaves the stream as it is otherwise. -/
def optional {α : Type} (r : Reader α) : Reader (Option α) := fun i =>
  match r i with
  | .ok (a, rest) => .ok (some a, rest)
  | .error _ => .ok (none, i)

/-- An operator; its marks come out joint as one operator. -/
def mark (operator : String) : Reader Tokens := taking fun s =>
  if s.isMark operator then .ok (Token.operator operator.toList, s.drop operator.length)
  else .error (.expected ("expected `" ++ operator ++ "`") false)

def mark? (operator : String) : Reader Tokens := do
  if ← sees (Stream.isMark operator) then mark operator else return []

def word (w : String) : Reader Tokens := taking fun s =>
  if s.isWord w then .ok ([.ident w], s.drop 1)
  else .error (.expected ("expected `" ++ w ++ "`") s.atEnd)

def word? (w : String) : Reader Tokens := do
  if ← sees (Stream.isWord w) then word w else return []

def ident : Reader String := taking fun s =>
  match s.word? with
  | some name => if isKeyword name then .error (.keyword name) else .ok (name, s.drop 1)
  | none => .error (.expected "expected identifier" s.atEnd)

def anyWord : Reader String := taking fun s =>
  match s.word? with
  | some name => .ok (name, s.drop 1)
  | none => .error (.expected "expected ident" s.atEnd)

def lifetime : Reader String := taking fun s =>
  match s with
  | ⟨.punct '\'' true, _⟩ :: ⟨.ident name, _⟩ :: rest => .ok (name, rest)
  | _ => .error (.expected "expected lifetime" (Stream.atEnd s))

/-- A literal as tokens; a minus sign stands on its own. -/
def literal : Reader Tokens := taking fun s =>
  match s with
  | ⟨.literal text, _⟩ :: rest => .ok ([.literal text], rest)
  | ⟨.ident name, _⟩ :: rest =>
    if name == "true" || name == "false" then .ok ([.ident name], rest)
    else .error (.expected "expected literal" false)
  | ⟨.punct '-' _, _⟩ :: ⟨.literal text, _⟩ :: rest =>
    if Stream.isNumber text then .ok ([.punct '-' false, .literal text], rest)
    else .error (.expected "expected literal" false)
  | _ => .error (.expected "expected literal" (Stream.atEnd s))

def stringLiteral : Reader String := taking fun s =>
  match s with
  | ⟨.literal text, _⟩ :: rest =>
    if (Text.stringValue? text).isSome then .ok (text, rest)
    else .error (.expected "expected string literal" false)
  | _ => .error (.expected "expected string literal" (Stream.atEnd s))

def Delimiter.expectation : Delimiter → String
  | .paren => "expected parentheses"
  | .bracket => "expected square brackets"
  | .brace => "expected curly braces"
  | .angle => "expected `<`"

/-- A group with its contents read by `inner`, which may leave some of them. -/
def group {α : Type} (d : Delimiter) (inner : Reader α) : Reader α := fun i =>
  match i.stream with
  | ⟨.opening e, _⟩ :: rest =>
    if d == e then
      match inner { i with stream := rest } with
      | .error f => .error f
      | .ok (a, ⟨⟨.closing _, _⟩ :: after, unread⟩) => .ok (a, ⟨after, unread⟩)
      | .ok (a, ⟨s, unread⟩) => .ok (a, ⟨s.afterGroup 0, unread <|> some d⟩)
    else .error (.expected (Delimiter.expectation d) false)
  | s => .error (.expected (Delimiter.expectation d) (Stream.atEnd s))

def contents : Reader Tokens := taking fun s =>
  let rest := s.afterGroup 0
  match s.drop (s.length - rest.length - 1) with
  | close@(⟨.closing _, _⟩ :: _) =>
    .ok ((s.take (s.length - close.length)).map (·.token), close)
  | _ => .ok (s.map (·.token), [])

def anyGroup : Reader (Delimiter × Tokens) := do
  match ← here with
  | ⟨.opening d, _⟩ :: _ => return (d, ← group d contents)
  | _ => expected "expected delimiter"

/-- Repeats a step while it answers more; each round that goes on takes a token, so the stream's
length bounds the rounds. -/
def repeatWith {ε α : Type} (step : α → StateT Input (Except ε) (α × Bool)) :
    Nat → α → StateT Input (Except ε) α
  | 0, a => pure a
  | n + 1, a => do
    let (b, more) ← step a
    if more then repeatWith step n b else pure b

def loop {ε α : Type} (start : α) (step : α → StateT Input (Except ε) (α × Bool)) :
    StateT Input (Except ε) α := fun i =>
  repeatWith step (i.stream.length + 2) start i

def untilEnd {α : Type} (part : Reader α) : Reader (List α) := do
  let parts ← loop [] fun done => do
    if ← atEnd then return (done, false)
    let a ← part
    return (a :: done, true)
  return parts.reverse

/-- Parts with commas between them until the group ends; a last comma may follow. -/
def commaList {α : Type} (part : Reader α) : Reader (List (α × Bool)) := do
  let parts ← loop [] fun done => do
    if ← atEnd then return (done, false)
    let a ← part
    if ← atEnd then return ((a, false) :: done, false)
    let _ ← mark ","
    return ((a, true) :: done, true)
  return parts.reverse

def withCommas (parts : List (Tokens × Bool)) : Tokens :=
  parts.flatMap fun (ts, comma) => if comma then ts ++ Tokens.comma else ts

def Input.leftover? (i : Input) : Option Fault :=
  match i.unread, i.stream with
  | some d, _ => some (.leftover (some d))
  | none, [] => none
  | none, _ => some (.leftover none)

def readAll {α : Type} (r : Reader α) (s : Stream) : Except Fault α := do
  let (a, left) ← r ⟨s, none⟩
  match left.leftover? with
  | none => return a
  | some f => .error f

def readText {α : Type} (r : Reader α) (text : String) : Except Fault α :=
  match lex? text with
  | some s => readAll r s
  | none => .error .tokens

/-- Reads the text that a string literal stands for; nothing may follow the literal's quotes. -/
def readQuoted {α : Type} (r : Reader α) (literal : String) : Except Fault α := do
  let a ← readText r ((Text.stringValue? literal).getD "")
  let word := Text.suffix literal
  if word.isEmpty then return a else .error (.wordAfterString word)

end RecordViews.Grammar
