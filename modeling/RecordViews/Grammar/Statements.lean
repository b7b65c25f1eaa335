import RecordViews.Grammar.Expressions

/-!
Reading statements.
-/

namespace RecordViews.Grammar

def localStatement (g : Nested) : Reader Tokens := do
  let front ← word "let"
  let pattern ← g.pattern
  let colon ← mark? ":"
  let ty ← if colon.isEmpty then pure [] else Ty.tokens <$> g.ty true
  let equals ← mark? "="
  let value ← if equals.isEmpty then pure [] else do
    let e ← g.expr true
    let otherwise ←
      if e.tokens.getLast? == some (.closing .brace) then pure []
      else whenSeen (Stream.isWord "else") (followedBy (word "else") (block g))
    pure (e.tokens ++ otherwise)
  return front ++ pattern.tokens ++ colon ++ ty ++ equals ++ value ++ (← mark ";")

/-- A word that only an item starts with, given what follows. -/
def Stream.isItem (s : Stream) : Bool :=
  let isFunctionWord (t : Stream) : Bool := ["unsafe", "extern", "fn"].any t.isWord
  ["pub", "extern", "use", "fn", "mod", "type", "struct", "enum", "trait", "impl",
    "macro"].any s.isWord ||
  (s.isWord "crate" && !s.second (Stream.isMark "::")) ||
  (s.isWord "static" && (s.second (Stream.isWord "mut") || s.second Stream.isIdent)) ||
  (s.isWord "const" && !(s.second (Stream.isOpen .brace) || s.second (Stream.isMark "|") ||
    s.second (Stream.isWord "static") || s.second (Stream.isWord "move") ||
    (s.second (Stream.isWord "async") && !s.third isFunctionWord))) ||
  (s.isWord "unsafe" && !s.second (Stream.isOpen .brace)) ||
  (s.isWord "async" && s.second isFunctionWord) ||
  (s.isWord "union" && s.second Stream.isIdent) ||
  (s.isWord "auto" && s.second (Stream.isWord "trait")) ||
  (s.isWord "default" && (s.second (Stream.isWord "unsafe") || s.second (Stream.isWord "impl")))

/-- What a macro call at the start of a statement is. -/
inductive MacroForm where
  | none | item | braced
deriving DecidableEq, Repr, Inhabited

def macroForm : Reader MacroForm := do
  let call : Reader MacroForm := do
    let _ ← plainPath
    let s ← here
    if !s.isMark "!" then return .none
    if s.second Stream.isIdent || s.second (Stream.isWord "try") then return .item
    let goesOn := s.third fun t => t.isPoint || t.isMark "?"
    return if s.second (Stream.isOpen .brace) && !goesOn then .braced else .none
  return (← ahead call).getD .none

/-- One statement and whether a semicolon has to follow it. -/
def statement (g : Nested) : Reader (Tokens × Bool) := do
  let start ← here
  let before ← outerAttributes g
  let attributes := Attribute.outerTokens before
  let form ← macroForm
  if form == .braced then
    let ts ← macroCall (← plainPath)
    return (attributes ++ ts ++ (← mark? ";"), false)
  if ← sees (Stream.isWord "let") then return (attributes ++ (← localStatement g), false)
  if form == .item || (← sees Stream.isItem) then return ((← g.item start before).tokens, false)
  let e ← g.arm
  let semicolon ← mark? ";"
  let complete := !semicolon.isEmpty || e.form == .block || e.form == .bracedMacro
  return ((e.withAttributes attributes).tokens ++ semicolon, !complete)

def statementsOf (g : Nested) : Reader Tokens :=
  loop [] fun done => do
    let semicolon ← mark? ";"
    if !semicolon.isEmpty then return (done ++ semicolon, true)
    if ← atEnd then return (done, false)
    let (ts, incomplete) ← statement g
    if incomplete && !(← atEnd) then expected "unexpected token, expected `;`"
    return (done ++ ts, true)

end RecordViews.Grammar
