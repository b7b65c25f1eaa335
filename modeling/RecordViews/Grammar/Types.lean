import RecordViews.Grammar.Nested

/-!
Reading paths, generic arguments and parameters, bounds and types.
-/

namespace RecordViews.Grammar

/-- Parts with commas between them up to a closing angle, which is read as well. -/
def angleParts (part : Reader Tokens) : Reader Tokens := do
  let _ ← mark "<"
  let parts ← loop [] fun done => do
    if ← sees (Stream.isMark ">") then return (done, false)
    let ts ← part
    if ← sees (Stream.isMark ">") then return ((ts, false) :: done, false)
    let _ ← mark ","
    return ((ts, true) :: done, true)
  let _ ← mark ">"
  return withCommas parts.reverse

def angleGroup (part : Reader Tokens) : Reader Tokens := do
  return Tokens.enclose .angle (← angleParts part)

/-- Angles enclose parameters here rather than start a type. -/
def Stream.isParams (s : Stream) : Bool :=
  s.isMark "<" &&
    (s.second (Stream.isMark ">") || s.second (Stream.isMark "#") ||
      s.second (Stream.isWord "const") ||
      (s.second (fun t => t.isLifetime || t.isIdent) &&
        s.third fun t => (t.isMark ":" && !t.isMark "::") || t.isMark "," || t.isMark ">" ||
          t.isMark "="))

def isConstArgument (s : Stream) : Bool :=
  s.isLiteral || s.isOpen .brace

def constArgument (g : Nested) : Reader Tokens := do
  if ← sees Stream.isLiteral then literal
  else if ← sees Stream.isIdent then return [.ident (← ident)]
  else if ← sees (Stream.isOpen .brace) then body g
  else expectedOneOf []

/-- Bounds with plusses between them, up to where `stop` holds. -/
def boundsUntil (stop : Stream → Bool) (bound : Reader Tokens) : Reader Tokens := do
  let parts ← loop [] fun done => do
    if ← sees stop then return (done, false)
    let ts ← bound
    let plus ← mark? "+"
    return ((ts ++ plus) :: done, !plus.isEmpty)
  return parts.reverse.flatten

/-- A bound of a parameter or associated type; a trait may be one that holds for constants. -/
def paramBound (g : Nested) : Reader Tokens :=
  Prod.snd <$> g.bound { constant := true }

/-- The name of a type that can be bound or constrained in an argument list. -/
def Ty.isArgumentName : Ty → Bool
  | .path { leading := false, segments := [_] } => true
  | _ => false

def genericArgument (g : Nested) : Reader Tokens := do
  if ← sees fun s => s.isLifetime && !s.second (Stream.isMark "+") then
    return Tokens.lifetime (← lifetime)
  if ← sees isConstArgument then return ← constArgument g
  let ty ← g.ty true
  if !ty.isArgumentName then return ty.tokens
  let equals ← mark? "="
  if !equals.isEmpty then
    let value ← if ← sees isConstArgument then constArgument g else Ty.tokens <$> g.ty true
    return ty.tokens ++ equals ++ value
  let colon ← mark? ":"
  if colon.isEmpty then return ty.tokens
  let stop (s : Stream) : Bool := s.isMark "," || s.isMark ">"
  return ty.tokens ++ colon ++ (← boundsUntil stop (paramBound g))

def genericArguments (g : Nested) : Reader Tokens :=
  angleGroup (genericArgument g)

/-- One step of a path. Outside expressions generic arguments follow without `::`. -/
def pathSegment (g : Nested) (inExpr : Bool) : Reader Segment := do
  if ← sees fun s => ["super", "self", "crate", "try"].any s.isWord then
    return { name := ← anyWord }
  let name ← if ← sees (Stream.isWord "Self") then anyWord else ident
  let isArguments (s : Stream) : Bool :=
    (!inExpr && s.isMark "<" && !s.isMark "<=" && !s.isMark "<<=") ||
      (s.isMark "::" && s.third (Stream.isMark "<"))
  if ← sees isArguments then
    let front ← mark? "::"
    return { name, args := front ++ (← genericArguments g) }
  return { name }

def pathOf (g : Nested) (inExpr : Bool) : Reader Path := do
  let leading ← mark? "::"
  let first ← pathSegment g inExpr
  let found ← loop [first] fun done => do
    if !(← sees fun s => s.isMark "::" && !s.third (Stream.isOpen .paren)) then return (done, false)
    let _ ← mark "::"
    return ((← pathSegment g inExpr) :: done, true)
  return { leading := !leading.isEmpty, segments := found.reverse }

/-- A path that may start with a type in angles. Such a path is only its tokens. -/
def qualifiedPath (g : Nested) (inExpr : Bool) : Reader (Path ⊕ Tokens) := do
  if !(← sees (Stream.isMark "<")) then return .inl (← pathOf g inExpr)
  let _ ← mark "<"
  let self ← g.ty true
  let cast ← whenSeen (Stream.isWord "as") do
    return (← word "as") ++ (← pathOf g false).tokens
  let _ ← mark ">"
  let _ ← mark "::"
  let first ← pathSegment g inExpr
  let rest ← loop [first] fun done => do
    if !(← sees (Stream.isMark "::")) then return (done, false)
    let _ ← mark "::"
    return ((← pathSegment g inExpr) :: done, true)
  let path : Path := { leading := true, segments := rest.reverse }
  return .inr (Tokens.enclose .angle (self.tokens ++ cast) ++ path.tokens)

/-- The arrow and type of a result; nothing if there is no arrow. -/
def result (g : Nested) (plus : Bool) : Reader (Option Ty) := do
  if (← mark? "->").isEmpty then return none else return some (← g.ty plus)

/-- An opening parenthesis, with or without `::` in front. -/
def Stream.isCall (s : Stream) : Bool :=
  s.isOpen .paren || (s.isMark "::" && s.third (Stream.isOpen .paren))

/-- Gives the last step of a path arguments if it has none. -/
def Path.withLastArgs (path : Path) (args : Tokens) : Path :=
  match path.segments.getLast? with
  | some s => { path with segments := path.segments.dropLast ++ [{ s with args }] }
  | none => path

def Path.endsPlain (path : Path) : Bool :=
  path.segments.getLast?.any (·.args.isEmpty)

/-- The path of a trait; one of a function trait may end in parameters and a result. -/
def traitPath (g : Nested) : Reader Path := do
  let path ← pathOf g false
  if !path.endsPlain || !(← sees Stream.isCall) then return path
  let _ ← mark? "::"
  let inputs ← commaGroup .paren (Ty.tokens <$> g.ty true)
  let output ← result g false
  return path.withLastArgs (inputs ++ FunctionItem.outputTokens output)

def lifetimeParam : Reader Tokens := do
  let name := Tokens.lifetime (← lifetime)
  let isStop (s : Stream) : Bool := s.atEnd || s.isMark "," || s.isMark ">"
  let colon ← mark? ":"
  let bounds ← if colon.isEmpty then pure [] else
    boundsUntil isStop (Tokens.lifetime <$> lifetime)
  return name ++ if bounds.isEmpty then [] else colon ++ bounds

def typeParam (g : Nested) : Reader Tokens := do
  let name ← ident
  let isStop (s : Stream) : Bool := s.atEnd || s.isMark "," || s.isMark ">" || s.isMark "="
  let colon ← mark? ":"
  let bounds ← if colon.isEmpty then pure [] else boundsUntil isStop (paramBound g)
  let equals ← mark? "="
  let value ← if equals.isEmpty then pure [] else Ty.tokens <$> g.ty true
  return .ident name :: (if bounds.isEmpty then [] else colon ++ bounds) ++ equals ++ value

def constParam (g : Nested) : Reader Tokens := do
  let front ← word "const"
  let name ← ident
  let colon ← mark ":"
  let ty ← g.ty true
  let equals ← mark? "="
  let value ← if equals.isEmpty then pure [] else constArgument g
  return front ++ .ident name :: colon ++ ty.tokens ++ equals ++ value

def genericParam (g : Nested) : Reader Tokens := do
  let attributes ← attributeTokens g
  if ← sees Stream.isLifetime then return attributes ++ (← lifetimeParam)
  if ← sees Stream.isIdent then return attributes ++ (← typeParam g)
  if ← sees (Stream.isWord "const") then return attributes ++ (← constParam g)
  if ← sees (Stream.isWord "_") then return attributes ++ (← word "_")
  expectedOneOf ["lifetime", "identifier", "`const`"]

/-- The parameters of a declaration, in angles. Of an empty list nothing is kept. -/
def genericParams? (g : Nested) : Reader (Option Tokens) := do
  if !(← sees (Stream.isMark "<")) then return none
  let ts ← angleParts (genericParam g)
  return some (if ts.isEmpty then [] else Tokens.enclose .angle ts)

def genericParams (g : Nested) : Reader Tokens := do
  return (← genericParams? g).getD []

/-- The binder of what holds for all its parameters, which keep their order. -/
def binder? (g : Nested) : Reader Tokens :=
  whenSeen (Stream.isWord "for") do
    let front ← word "for"
    let param : Reader Tokens := do
      let attributes ← attributeTokens g
      if ← sees Stream.isIdent then return attributes ++ (← typeParam g)
      if ← sees Stream.isLifetime then return attributes ++ (← lifetimeParam)
      if ← sees (Stream.isWord "const") then return attributes ++ (← constParam g)
      expectedOneOf ["identifier", "lifetime", "`const`"]
    return front ++ .punct '<' false :: (← angleParts param) ++ [.punct '>' false]

/-- A trait with its binder and sign, and whether it holds for constants. -/
def traitBound (g : Nested) (allowConst : Bool) : Reader (Bool × Tokens) := do
  let outer ← binder? g
  let isMaybeConst ← sees (Stream.isOpen .bracket)
  let isConst ← sees (Stream.isWord "const")
  if isMaybeConst then
    let _ ← group .bracket (word "const")
    if !allowConst then refuse "`[const]` is not allowed here"
  if isConst then
    let _ ← word "const"
    if !allowConst then refuse "`const` is not allowed here"
  let sign ← mark? "?"
  let binder ← if outer.isEmpty && !sign.isEmpty then binder? g else pure outer
  let path ← traitPath g
  if !binder.isEmpty && !sign.isEmpty then
    refuse "`for<...>` binder not allowed with `?` trait polarity modifier"
  return (isMaybeConst || isConst, sign ++ binder ++ path.tokens)

def captures : Reader Tokens := do
  let front ← word "use"
  let _ ← mark "<"
  let param : Reader Tokens := do
    if ← sees Stream.isLifetime then return Tokens.lifetime (← lifetime)
    if ← sees fun s => s.isIdent || s.isWord "Self" then return [.ident (← anyWord)]
    expectedOneOf ["lifetime", "identifier", "`>`"]
  let params ← loop [] fun done => do
    if ← sees (Stream.isMark ">") then return (done, false)
    let ts ← param
    if ← sees (Stream.isMark ">") then return (done ++ ts, false)
    if !(← sees (Stream.isMark ",")) then expectedOneOf ["`,`", "`>`"]
    return (done ++ ts ++ (← mark ","), true)
  let _ ← mark ">"
  return front ++ Tokens.enclose .angle params

/-- A bound of a type or parameter. A trait that holds for constants is kept as it is written. -/
def boundOf (g : Nested) (rules : BoundRules) : Reader (BoundForm × Tokens) := do
  if ← sees Stream.isLifetime then return (.lifetime, Tokens.lifetime (← lifetime))
  if ← sees (Stream.isWord "use") then
    let found ← captures
    if !rules.captures then refuse "`use<...>` precise capturing syntax is not allowed here"
    return (.captured, found)
  let start ← here
  let bound := traitBound g rules.constant
  let (isConst, ts) ←
    if ← sees (Stream.isOpen .paren) then
      let (isConst, ts) ← group .paren bound
      pure (isConst, Tokens.parens ts)
    else bound
  return (.trait, ← if isConst then writtenSince start else pure ts)

def Stream.isBound (s : Stream) : Bool :=
  s.word?.isSome || s.isMark "::" || s.isMark "?" || s.isLifetime || s.isOpen .paren

/-- Bounds joined by `+`, of which one has to be a trait; a last one may be missing. -/
def traitBounds (g : Nested) (plus : Bool) (rules : BoundRules) (rule : String) :
    Reader Tokens := do
  let isBound (s : Stream) : Bool := s.isBound || (rules.constant && s.isOpen .bracket)
  let found ← loop [] fun done => do
    let (form, ts) ← g.bound rules
    if !plus || !(← sees (Stream.isMark "+")) then return ((form, ts) :: done, false)
    let joint ← mark "+"
    return ((form, ts ++ joint) :: done, ← sees isBound)
  if found.all (·.1 != .trait) then refuse rule
  return found.reverse.flatMap (·.2)

def objectBounds (g : Nested) (plus : Bool) : Reader Tokens :=
  traitBounds g plus {} "at least one trait is required for an object type"

/-- The conditions of a declaration. Of an empty list nothing is kept. -/
def whereClause? (g : Nested) : Reader (Option Tokens) := do
  if !(← sees (Stream.isWord "where")) then return none
  let front ← word "where"
  if ← sees Stream.isParams then
    expected "generic parameters on `where` clauses are reserved for future use"
  let isStop (s : Stream) : Bool :=
    s.atEnd || s.isOpen .brace || s.isMark "," || s.isMark ";" ||
      (s.isMark ":" && !s.isMark "::") || s.isMark "="
  let condition : Reader Tokens := do
    if ← sees fun s => s.isLifetime && s.second (Stream.isMark ":") then
      let name := Tokens.lifetime (← lifetime)
      let colon ← mark ":"
      let isEnd (s : Stream) : Bool := isStop s || s.isMark ":"
      return name ++ colon ++ (← boundsUntil isEnd (Tokens.lifetime <$> lifetime))
    let front ← binder? g
    let ty ← g.ty true
    let colon ← mark ":"
    return front ++ ty.tokens ++ colon ++ (← boundsUntil isStop (paramBound g))
  let conditions ← loop [] fun done => do
    if ← sees isStop then return (done, false)
    let ts ← condition
    let comma ← mark? ","
    return ((ts ++ comma) :: done, !comma.isEmpty)
  return some (if conditions.isEmpty then [] else front ++ conditions.reverse.flatten)

def whereClause (g : Nested) : Reader Tokens := do
  return (← whereClause? g).getD []

def macroCall (path : Path) : Reader Tokens := do
  let bang ← mark "!"
  let (d, inner) ← anyGroup
  return path.tokens ++ bang ++ Tokens.enclose d inner

def isMacroCall (path : Path) (s : Stream) : Bool :=
  path.isPlain && s.isMark "!" && !s.isMark "!="

/-- Something that only the compiler knows, by its name. -/
def Stream.isBuiltin (s : Stream) : Bool :=
  s.isWord "builtin" && s.second (Stream.isMark "#")

/-- Something that only the compiler knows, as it is written. -/
def builtin : Reader Tokens := written do
  let _ ← word "builtin"
  let _ ← mark "#"
  let _ ← ident
  group .paren contents

def abi? : Reader Tokens :=
  whenSeen (Stream.isWord "extern") (followedBy (word "extern") stringLiteral?)

/-- A name with a colon, but no path, comes next. -/
def Stream.isNamed (s : Stream) : Bool :=
  s.second fun t => t.isMark ":" && !t.isMark "::"

/-- A parameter of a function type. The first one may be what the function is called on, which is
kept as it is written if it is mutable. -/
def functionTypeParam (g : Nested) (isFirst : Bool) : Reader Tokens := do
  let start ← here
  let isMutableSelf (s : Stream) : Bool := s.isWord "mut" && s.second (Stream.isWord "self")
  let isName (s : Stream) : Bool :=
    (s.isIdent || s.isWord "_" || (isFirst && s.isWord "self")) && s.isNamed
  let name : Reader Tokens := return .ident (← anyWord) :: (← mark ":")
  if isFirst && (← sees isMutableSelf) then
    return ← written do
      let _ ← word "mut"
      if ← sees isName then
        let _ ← name
        let _ ← g.ty true
      else
        let _ ← word "self"
  let isSelf ← sees (Stream.isWord "self")
  let front ← whenSeen isName name
  if isFirst && !isSelf && (← sees isMutableSelf) then
    let _ ← followedBy (word "mut") (word "self")
    return ← writtenSince start
  return front ++ (← g.ty true).tokens

/-- The parameters of a function type; any number of further ones may follow them. -/
def functionTypeParams (g : Nested) : Reader Tokens := do
  let isVariadic (s : Stream) : Bool :=
    s.isMark "..." ||
      ((s.isIdent || s.isWord "_") && s.second (Stream.isMark ":") && s.third (Stream.isMark "..."))
  groupOf .paren <| loop [] fun done => do
    if ← atEnd then return (done, false)
    let attributes ← attributeTokens g
    if ← sees isVariadic then
      let name ← whenSeen (fun s => s.word?.isSome) do return .ident (← anyWord) :: (← mark ":")
      let dots ← mark "..."
      return (done ++ attributes ++ name ++ dots ++ (← mark? ","), false)
    let param ← functionTypeParam g done.isEmpty
    if ← atEnd then return (done ++ attributes ++ param, false)
    return (done ++ attributes ++ param ++ (← mark ","), true)

def functionType (g : Nested) : Reader Tokens := do
  let front ← followedBy (word? "unsafe") (followedBy abi? (word "fn"))
  let params ← functionTypeParams g
  return front ++ params ++ FunctionItem.outputTokens (← result g false)

def moreBounds (g : Nested) (first : Tokens) : Reader Ty := do
  let found ← loop [first] fun done => do
    if (← mark? "+").isEmpty then return (done, false)
    return ((← g.bound {}).2 :: done, true)
  return .bounds found.reverse

/-- Further bounds behind a first one, where a plus may end them. -/
def moreBoundsOrPlus (g : Nested) (first : Tokens) : Reader Ty := do
  let found ← loop [first] fun done => do
    if (← mark? "+").isEmpty then return (done, false)
    if ← sees Stream.isBound then return ((← g.bound {}).2 :: done, true)
    return ([] :: done, false)
  return .bounds found.reverse

/-- A bound in parentheses; no second pair is put around it. -/
def inParens : Tokens → Tokens
  | .opening .paren :: rest => .opening .paren :: rest
  | ts => Tokens.parens ts

/-- A type in parentheses, a tuple, or the first of several bounds. -/
def parenthesised (g : Nested) (plus : Bool) : Reader Ty := do
  let isOptional := Stream.isMark "?"
  let startsOptional ← sees fun s => isOptional (s.drop 1)
  let contents : Reader Ty := do
    if ← atEnd then return .unit
    if ← sees Stream.isLifetime then return .paren (.other (← objectBounds g true))
    if startsOptional then return .bounds [Tokens.parens (← traitBound g false).2]
    let first ← g.ty true
    let comma ← mark? ","
    if comma.isEmpty then return .paren first
    let rest ← commaList (Ty.tokens <$> g.ty true)
    return .tuple (first.tokens ++ comma ++ withCommas rest)
  let ty ← group .paren contents
  let goesOn := plus && (← sees (Stream.isMark "+"))
  match ty with
  | .bounds [first] => moreBounds g first
  | .paren (.path p) => if goesOn then moreBounds g (Tokens.parens p.tokens) else return ty
  | .paren (.bounds [first]) => if goesOn then moreBounds g (inParens first) else return ty
  | _ => return ty

def pathType (g : Nested) (plus : Bool) (front : Tokens) : Reader Ty := do
  match ← qualifiedPath g false with
  | .inr tokens => return .other tokens
  | .inl path =>
    if ← sees (isMacroCall path) then return .other (← macroCall path)
    let goesOn := plus && (← sees (Stream.isMark "+"))
    if goesOn then moreBoundsOrPlus g (front ++ path.tokens)
    else if !front.isEmpty then return .bounds [front ++ path.tokens]
    else return .path path

/-- The words and marks a type can start with, as they are listed in messages. -/
def typeStarts : List String :=
  ["`for`", "parentheses", "`fn`", "`unsafe`", "`extern`", "identifier", "`::`", "`<`", "`dyn`",
   "square brackets", "`*`", "`&`", "`!`", "`impl`", "`_`", "lifetime"]

def boundTypeStarts : List String :=
  ["identifier", "`fn`", "`unsafe`", "`extern`", "`super`", "`self`", "`Self`", "`crate`"]

def Stream.isFunctionType (s : Stream) : Bool :=
  ["fn", "unsafe", "extern"].any s.isWord

def Stream.isPathRoot (s : Stream) : Bool :=
  ["super", "self", "Self", "crate"].any s.isWord

/-- A type; `plus` allows bounds joined by `+`. -/
def typeOf (g : Nested) (plus : Bool) : Reader Ty := do
  let start ← here
  let front ← binder? g
  if !front.isEmpty && !(← sees fun s => s.isIdent || s.isFunctionType || s.isPathRoot) then
    expectedOneOf boundTypeStarts
  if ← sees (Stream.isOpen .paren) then return ← parenthesised g plus
  if ← sees Stream.isFunctionType then return .other (front ++ (← functionType g))
  if ← sees Stream.isBuiltin then
    let _ ← builtin
    return .other (← writtenSince start)
  if ← sees fun s => s.isIdent || s.isPathRoot || s.isMark "::" || s.isMark "<" then
    return ← pathType g plus front
  if ← sees (Stream.isWord "dyn") then
    let front ← word "dyn"
    let star ← mark? "*"
    let bounds ← objectBounds g plus
    return .other (← if star.isEmpty then pure (front ++ bounds) else writtenSince start)
  if ← sees (Stream.isOpen .bracket) then
    return .other (← groupOf .bracket do
      let element ← g.ty true
      let semicolon ← mark? ";"
      if semicolon.isEmpty then return element.tokens
      return element.tokens ++ semicolon ++ (← g.expr true).tokens)
  if ← sees (Stream.isMark "*") then
    let star ← mark "*"
    if !(← sees fun s => s.isWord "const" || s.isWord "mut") then
      expectedOneOf ["`const`", "`mut`"]
    return .other (star ++ .ident (← anyWord) :: (← g.ty false).tokens)
  if ← sees (Stream.isMark "&") then
    let _ ← mark "&"
    let name ← lifetime?
    let mutable ← word? "mut"
    return .reference name (!mutable.isEmpty) (← g.ty false)
  if ← sees (Stream.isMark "!") then
    let _ ← mark "!"
    return .never
  if ← sees (Stream.isWord "impl") then
    let _ ← word "impl"
    let rules : BoundRules := { captures := true, constant := true }
    return .implTrait (← traitBounds g plus rules "at least one trait must be specified")
  if ← sees (Stream.isWord "_") then
    let _ ← word "_"
    return .inferred
  if ← sees Stream.isLifetime then return .other (← objectBounds g true)
  expectedOneOf typeStarts

end RecordViews.Grammar
