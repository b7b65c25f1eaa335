import RecordViews.Grammar.Patterns

/-!
Reading expressions. They come out as the tokens they consist of, with operators split as the
grammar reads them.
-/

namespace RecordViews.Grammar

/-- The operators between two operands, longer ones before those they start with. -/
def binaryOperators : List (String × Precedence) :=
  [("&&", .and), ("||", .or), ("+=", .assign), ("-=", .assign), ("*=", .assign), ("/=", .assign),
   ("%=", .assign), ("^=", .assign), ("&=", .assign), ("|=", .assign), ("<<=", .assign),
   (">>=", .assign), ("<<", .shift), (">>", .shift), ("==", .compare), ("<=", .compare),
   ("!=", .compare), (">=", .compare), ("+", .sum), ("-", .sum), ("*", .product), ("/", .product),
   ("%", .product), ("^", .bitXor), ("&", .bitAnd), ("|", .bitOr), ("<", .compare),
   (">", .compare)]

def Stream.operator? (s : Stream) : Option (String × Precedence) :=
  binaryOperators.find? fun (operator, _) => s.isMark operator

def Stream.precedence (s : Stream) : Precedence :=
  match s.operator? with
  | some (_, p) => p
  | none =>
    if s.isMark "=" && !s.isMark "=>" then .assign
    else if s.isMark ".." then .range
    else if s.isWord "as" then .cast
    else .jump

def Stream.isExpr (s : Stream) : Bool :=
  (s.word?.isSome && !s.isWord "as") || s.isOpening || s.isLiteral ||
    (s.isMark "!" && !s.isMark "!=") || (s.isMark "-" && !s.isMark "-=" && !s.isMark "->") ||
    (s.isMark "*" && !s.isMark "*=") || (s.isMark "|" && !s.isMark "|=") ||
    (s.isMark "&" && !s.isMark "&=") || s.isMark ".." ||
    (s.isMark "<" && !s.isMark "<=" && !s.isMark "<<=") || s.isMark "::" || s.isLifetime ||
    s.isMark "#"

/-- A point in front of a member, rather than a range. -/
def Stream.isPoint (s : Stream) : Bool :=
  s.isMark "." && !s.isMark ".."

def endsRange (structs : Bool) (s : Stream) : Bool :=
  s.atEnd || s.isMark "," || s.isMark ";" || s.isPoint || s.isMark "?" || s.isMark "=>" ||
    (!structs && s.isOpen .brace) || s.isMark "=" || s.isMark "+" || s.isMark "/" ||
    s.isMark "%" || s.isMark "^" || s.isMark ">" || s.isMark "<=" || s.isMark "!=" ||
    s.isMark "-=" || s.isMark "*=" || s.isMark "&=" || s.isMark "|=" || s.isMark "<<=" ||
    s.isWord "as"

/-- The right operand of an operator, with all operators that bind it more tightly. Assignments
group to the right. Behind a range nothing goes on. -/
def rightOperand (g : Nested) (structs : Bool) (p : Precedence) : Reader Expr := do
  loop (← g.operand structs) fun e => do
    let next := (← here).precedence
    if next.atLeast p && (next != p || p == .assign) then
      let before := (← here).length
      let e ← g.operators structs next e
      return (e, (← here).length < before)
    return (e, false)

def rangeFrom (g : Nested) (structs : Bool) (start : Tokens) : Reader Expr := do
  let marks ← rangeMarks
  if isHalfOpen marks && (← sees (endsRange structs)) then
    return { tokens := start ++ marks, form := .range }
  let last ← rightOperand g structs .range
  return { tokens := start ++ marks ++ last.tokens, form := .range }

def checkCast : Reader Unit := do
  let fails (what : String) : Reader Unit := expected ("casts cannot be followed by " ++ what)
  if ← sees Stream.isPoint then
    if ← sees fun s => s.second (Stream.isWord "await") then fails "`.await`"
    if ← sees fun s => s.second Stream.isIdent &&
        s.third (fun t => t.isOpen .paren || t.isMark "::") then
      fails "a method call"
    fails "a field access"
  if ← sees (Stream.isMark "?") then fails "`?`"
  if ← sees (Stream.isOpen .bracket) then fails "indexing"
  if ← sees (Stream.isOpen .paren) then fails "a function call"

/-- What operators that bind at least as tightly as `base` make of their left operand. -/
def operatorsOf (g : Nested) (structs : Bool) (base : Precedence) (left : Expr) : Reader Expr :=
  loop left fun e => do
    let s ← here
    if e.form == .range then return (e, false)
    let bare := e.bare
    match s.operator? with
    | some (operator, p) =>
      if !p.atLeast base then return (e, false)
      if p == .compare && e.form == .comparison then
        expected "comparison operators cannot be chained"
      let ts ← mark operator
      let right ← rightOperand g structs p
      let form := if p == .compare then .comparison else .plain
      return ({ tokens := e.tokens ++ ts ++ right.tokens, form, bare }, true)
    | none =>
      let next := s.precedence
      if !next.atLeast base then return (e, false)
      match next with
      | .assign =>
        let ts ← mark "="
        let right ← rightOperand g structs .assign
        return ({ tokens := e.tokens ++ ts ++ right.tokens, bare }, true)
      | .range => return (← rangeFrom g structs e.tokens, true)
      | .cast =>
        let ts ← word "as"
        let ty ← g.ty false
        checkCast
        return ({ tokens := e.tokens ++ ts ++ ty.tokens, bare }, true)
      | _ => return (e, false)

def exprGroup (g : Nested) (d : Delimiter) : Reader Tokens :=
  commaGroup d (Expr.tokens <$> g.expr true)

/-- The field names that a number with a point stands for, and whether it ends in the point. -/
def pointedFields (text : String) : Except Fault (List FieldName × Bool) := do
  let parts := text.splitOn "."
  let isOpen := parts.getLast? == some ""
  let names ← (if isOpen then parts.dropLast else parts).mapM fieldNumber
  return (names, isOpen)

/-- A field, call or await behind a point. A number with a point in it stands for two fields. -/
def member (g : Nested) : Reader Tokens := do
  let isPointed (s : Stream) : Bool := match s with
    | ⟨.literal text, _⟩ :: _ => Stream.isNumber text && (WholeNumber.ofLiteral? text).isNone
    | _ => false
  let point : Tokens := [.punct '.' false]
  let front ←
    if ← sees isPointed then
      let (names, isOpen) ← taking fun
        | ⟨.literal text, _⟩ :: rest => (pointedFields text).map (·, rest)
        | s => .ok (([], true), s)
      let ts := ((names.map FieldName.tokens).intersperse point).flatten
      if !isOpen then return ts
      pure (ts ++ point)
    else pure []
  if ← sees (Stream.isWord "await") then return front ++ (← word "await")
  let name ← fieldName
  let turbofish ← whenSeen (fun s => name.isNamed && s.isMark "::") do
    return (← mark "::") ++ (← genericArguments g)
  let isCall := !turbofish.isEmpty || (← sees (Stream.isOpen .paren))
  let args ← if name.isNamed && isCall then exprGroup g .paren else pure []
  return front ++ name.tokens ++ turbofish ++ args

def trailers (g : Nested) (e : Expr) : Reader Expr :=
  loop e fun e => do
    let extended (ts : Tokens) : Expr × Bool := ({ tokens := e.tokens ++ ts }, true)
    if ← sees (Stream.isOpen .paren) then return extended (← exprGroup g .paren)
    if e.form != .range && (← sees Stream.isPoint) then
      return extended ((← mark ".") ++ (← member g))
    if ← sees (Stream.isOpen .bracket) then
      return extended (← groupOf .bracket (Expr.tokens <$> g.expr true))
    if e.form != .range && (← sees (Stream.isMark "?")) then return extended (← mark "?")
    return (e, false)

def recordFields (g : Nested) : Reader Tokens := do
  let field : Reader Tokens := do
    let attributes ← attributeTokens g
    let name ← fieldName
    if !name.isNamed || (← sees (Stream.isMark ":")) then
      return attributes ++ name.tokens ++ (← mark ":") ++ (← g.expr true).tokens
    return attributes ++ name.tokens
  groupOf .brace do
    loop [] fun done => do
      if ← atEnd then return (done, false)
      if ← sees (Stream.isMark "..") then
        let dots ← mark ".."
        if ← atEnd then return (done ++ dots, false)
        return (done ++ dots ++ (← g.expr true).tokens, false)
      let ts ← field
      if ← atEnd then return (done ++ ts, false)
      return (done ++ ts ++ (← mark ","), true)

def pathExpr (g : Nested) (structs : Bool) : Reader Expr := do
  let found ← qualifiedPath g true
  if let .inl path := found then
    if ← sees (isMacroCall path) then
      let ts ← macroCall path
      let form := if ts.getLast? == some (.closing .brace) then .bracedMacro else .plain
      return { tokens := ts, form }
  let path := match found with
    | .inl path => path.tokens
    | .inr tokens => tokens
  if structs && (← sees (Stream.isOpen .brace)) then
    return { tokens := path ++ (← recordFields g) }
  return { tokens := path }

def tuple (g : Nested) : Reader Tokens :=
  exprGroup g .paren

/-- A list of elements, or one element and how often it is repeated. -/
def array (g : Nested) : Reader Tokens :=
  groupOf .bracket do
    if ← atEnd then return []
    let first ← g.expr true
    if ← atEnd then return first.tokens
    if ← sees (Stream.isMark ",") then
      let comma ← mark ","
      return first.tokens ++ comma ++ withCommas (← commaList (Expr.tokens <$> g.expr true))
    if ← sees (Stream.isMark ";") then
      return first.tokens ++ (← mark ";") ++ (← g.expr true).tokens
    expected "expected `,` or `;`"

def conditional (g : Nested) : Reader Tokens := do
  let branch : Reader Tokens := do
    return (← word "if") ++ (← g.expr false).tokens ++ (← block g)
  loop (← branch) fun done => do
    if !(← sees (Stream.isWord "else")) then return (done, false)
    let front ← word "else"
    if ← sees (Stream.isWord "if") then return (done ++ front ++ (← branch), true)
    if ← sees (Stream.isOpen .brace) then return (done ++ front ++ (← block g), false)
    expectedOneOf ["`if`", "curly braces"]

def matchArm (g : Nested) : Reader Tokens := do
  let attributes ← attributeTokens g
  let pattern ← g.patterns
  let guard ← whenSeen (Stream.isWord "if") do
    return (← word "if") ++ (← g.expr true).tokens
  let arrow ← mark "=>"
  let body ← g.arm
  let comma ← if body.form != .block && !(← atEnd) then mark "," else mark? ","
  return attributes ++ pattern.tokens ++ guard ++ arrow ++ body.tokens ++ comma

/-- A binder of a function literal comes next, rather than a loop. -/
def Stream.isBinder (s : Stream) : Bool :=
  s.isWord "for" && s.second Stream.isParams

def elementLoop (g : Nested) : Reader Tokens := do
  let front ← word "for"
  let pattern ← g.patterns
  let middle ← word "in"
  return front ++ pattern.tokens ++ middle ++ (← g.expr false).tokens ++ (← body g)

/-- An expression that ends in a block, if one comes next. -/
def blockExpr? (g : Nested) : Reader (Option Tokens) := do
  let beforeBlock (w : String) (s : Stream) : Bool := s.isWord w && s.second (Stream.isOpen .brace)
  if ← sees (Stream.isWord "if") then return some (← conditional g)
  if ← sees (Stream.isWord "while") then
    return some ((← word "while") ++ (← g.expr false).tokens ++ (← body g))
  if ← sees fun s => s.isWord "for" && !s.isBinder then return some (← elementLoop g)
  if ← sees (Stream.isWord "loop") then return some (← followedBy (word "loop") (body g))
  if ← sees (Stream.isWord "match") then
    let front ← word "match"
    let subject ← g.expr false
    let arms ← groupOf .brace do
      return (← innerAttributes g).flatMap Attribute.tokens ++ (← untilEnd (matchArm g)).flatten
    return some (front ++ subject.tokens ++ arms)
  if ← sees (beforeBlock "try") then return some (← followedBy (word "try") (block g))
  if ← sees fun s => s.isWord "unsafe" || beforeBlock "const" s then
    return some (.ident (← anyWord) :: (← body g))
  if ← sees (Stream.isOpen .brace) then return some (← body g)
  return none

def labelled (g : Nested) : Reader Expr := do
  let front := Tokens.lifetime (← lifetime) ++ (← mark ":")
  let isLabelled (s : Stream) : Bool :=
    ["while", "for", "loop"].any s.isWord || s.isOpen .brace
  if !(← sees isLabelled) then expected "expected loop or block expression"
  let ts? ← if ← sees (Stream.isWord "for") then some <$> elementLoop g else blockExpr? g
  match ts? with
  | some ts => return { tokens := front ++ ts, form := .block }
  | none => expected "expected loop or block expression"

def closureParam (g : Nested) : Reader Tokens := do
  let attributes ← attributeTokens g
  let pattern ← g.pattern
  let colon ← mark? ":"
  if colon.isEmpty then return pattern.withAttributes attributes
  return attributes ++ pattern.tokens ++ colon ++ (← g.ty true).tokens

def closure (g : Nested) (structs : Bool) : Reader Tokens := do
  let front ← followedBy (binder? g) (followedBy (word? "const") (followedBy (word? "static")
    (followedBy (word? "async") (word? "move"))))
  let first ← mark "|"
  let params ← loop [] fun done => do
    if ← sees (Stream.isMark "|") then return (done, false)
    let ts ← closureParam g
    if ← sees (Stream.isMark "|") then return (done ++ ts, false)
    return (done ++ ts ++ (← mark ","), true)
  let last ← mark "|"
  let output ← result g true
  let body ← if output.isSome then block g else Expr.tokens <$> g.expr structs
  return front ++ first ++ params ++ last ++ FunctionItem.outputTokens output ++ body

def breakExpr (g : Nested) (structs : Bool) : Reader Tokens := do
  let front ← word "break"
  if ← sees fun s => s.isLifetime && s.second (Stream.isMark ":") then
    let _ ← g.expr true
    refuse "parentheses required"
  let label := ((← lifetime?).map Tokens.lifetime).getD []
  let hasValue (s : Stream) : Bool := s.isExpr && (structs || !s.isOpen .brace)
  return front ++ label ++ (← whenSeen hasValue (Expr.tokens <$> g.expr true))

def Stream.isClosure (s : Stream) : Bool :=
  s.isMark "|" || s.isWord "move" || s.isBinder || s.isWord "static" ||
    (s.isWord "const" && !s.second (Stream.isOpen .brace)) ||
    (s.isWord "async" && (s.second (Stream.isMark "|") || s.second (Stream.isWord "move")))

def Stream.isAsyncBlock (s : Stream) : Bool :=
  s.isWord "async" && (s.second (Stream.isOpen .brace) ||
    (s.second (Stream.isWord "move") && s.third (Stream.isOpen .brace)))

def Stream.isPathExpr (s : Stream) : Bool :=
  s.isIdent || s.isMark "::" || s.isMark "<" || s.isPathRoot ||
    (s.isWord "try" && (s.second (Stream.isMark "!") || s.second (Stream.isMark "::")))

def atom (g : Nested) (structs : Bool) : Reader Expr := do
  let plain (r : Reader Tokens) : Reader Expr := return { tokens := ← r }
  let raw (r : Reader Tokens) : Reader Expr :=
    return { tokens := ← r, form := .written, bare := true }
  if ← sees Stream.isLiteral then return ← plain literal
  if ← sees Stream.isAsyncBlock then
    return ← plain (followedBy (word "async") (followedBy (word? "move") (block g)))
  if ← sees Stream.isClosure then return ← plain (closure g structs)
  if ← sees Stream.isBuiltin then return ← raw builtin
  if ← sees Stream.isPathExpr then return ← pathExpr g structs
  if ← sees (Stream.isOpen .paren) then return ← plain (tuple g)
  if ← sees (Stream.isWord "break") then return ← plain (breakExpr g structs)
  if ← sees (Stream.isWord "continue") then
    let front ← word "continue"
    return { tokens := front ++ ((← lifetime?).map Tokens.lifetime).getD [] }
  if ← sees fun s => s.isWord "return" || s.isWord "yield" then
    let front ← anyWord
    let value ← whenSeen Stream.isExpr (Expr.tokens <$> g.expr true)
    return { tokens := .ident front :: value }
  if ← sees (Stream.isWord "become") then
    return ← raw (written do
      let _ ← word "become"
      g.expr true)
  if ← sees (Stream.isOpen .bracket) then return ← plain (array g)
  if ← sees (Stream.isWord "let") then
    let front ← word "let"
    let pattern ← g.patterns
    let equals ← mark "="
    let value ← g.operators structs .compare (← g.operand structs)
    return { tokens := front ++ pattern.tokens ++ equals ++ value.tokens }
  if let some ts ← blockExpr? g then return { tokens := ts, form := .block }
  if ← sees (Stream.isMark "..") then return ← rangeFrom g structs []
  if ← sees (Stream.isWord "_") then return ← plain (word "_")
  if ← sees Stream.isLifetime then return ← labelled g
  expected "expected an expression"

/-- An expression with its calls and fields, behind its attributes. What is kept as it is written
is kept with them. -/
def atomWithTrailers (g : Nested) (structs : Bool) (start : Stream) (attributes : Tokens) :
    Reader Expr := do
  let e ← trailers g (← atom g structs)
  match e.form with
  | .written => return { e with tokens := ← writtenSince start }
  | .range =>
    if !attributes.isEmpty then
      refuse "attributes are not allowed on range expressions starting with `..`"
    return e
  | _ => return { e with tokens := attributes ++ e.tokens }

/-- An operand: signs and references, then an expression with its calls and fields. -/
def operandOf (g : Nested) (structs : Bool) : Reader Expr := do
  let start ← here
  let attributes ← attributeTokens g
  let under (front : Tokens) : Reader Expr := do
    return { tokens := attributes ++ front ++ (← g.operand structs).tokens }
  if ← sees (Stream.isMark "&") then
    let front ← mark "&"
    let isRaw (s : Stream) : Bool :=
      s.isWord "raw" && (s.second (Stream.isWord "mut") || s.second (Stream.isWord "const"))
    let raw ← whenSeen isRaw (word "raw")
    let kind ← if raw.isEmpty then word? "mut" else pure [.ident (← anyWord)]
    return ← under (front ++ raw ++ kind)
  if ← sees (Stream.isMark "*") then return ← under (← mark "*")
  if ← sees (Stream.isMark "!") then return ← under (← mark "!")
  if ← sees (Stream.isMark "-") then return ← under (← mark "-")
  atomWithTrailers g structs start attributes

def exprOf (g : Nested) (structs : Bool) : Reader Expr := do
  operatorsOf g structs .jump (← g.operand structs)

/-- An expression that a block ends: the body of a match arm, or a statement. -/
def armOf (g : Nested) : Reader Expr := do
  let attributes ← attributeTokens g
  let e ←
    match ← blockExpr? g with
    | some ts => pure { tokens := ts, form := .block : Expr }
    | none => if ← sees Stream.isLifetime then labelled g else operandOf g true
  if e.form != .block then return ← operatorsOf g true .jump (e.withAttributes attributes)
  if ← sees fun s => s.isPoint || s.isMark "?" then
    let e ← trailers g e
    operatorsOf g true .jump (e.withAttributes attributes)
  else return e.withAttributes attributes

end RecordViews.Grammar
