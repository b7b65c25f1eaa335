import RecordViews.Grammar.Statements

/-!
Reading what declarations have in common: visibility, fields, the heads of functions, constants,
types and macro calls.
-/

namespace RecordViews.Grammar

/-- Who may see an item. What stands in parentheses counts only if it can be a place. -/
def visibility : Reader Visibility := do
  if !(← sees (Stream.isWord "pub")) then return .inherited
  let _ ← word "pub"
  let isWithin (w : String) (s : Stream) : Bool := s.isOpen .paren && Stream.isWord w (s.drop 1)
  let isRoot (s : Stream) : Bool := ["crate", "self", "super"].any (isWithin · s)
  if ← sees fun s => isRoot s && Stream.atEnd (s.drop 2) then
    return .restricted false (Path.ofNames [← group .paren anyWord])
  if ← sees (isWithin "in") then
    return .restricted true (← group .paren do
      let _ ← word "in"
      plainPath)
  return .everywhere

def Visibility.isInherited : Visibility → Bool
  | .inherited => true
  | _ => false

/-- A name where the underscore stands for none. -/
def nameOrBlank : Reader Tokens := do
  if ← sees (Stream.isWord "_") then word "_" else return [.ident (← ident)]

/-- The value behind an equals sign, if there is one. -/
def initial (g : Nested) : Reader Tokens := do
  let equals ← mark? "="
  if equals.isEmpty then return [] else return equals ++ (← g.expr true).tokens

/-- A named field. One without a name may be a record of its own, which is kept as it is
written. -/
def field (g : Nested) : Reader Field := do
  let attributes ← outerAttributes g
  let vis ← visibility
  let isBlank ← sees (Stream.isWord "_")
  let name ← if isBlank then anyWord else ident
  let _ ← mark ":"
  let isRecord (s : Stream) : Bool :=
    s.isWord "struct" || (s.isWord "union" && s.second (Stream.isOpen .brace))
  let record : Reader Tokens := written do
    let _ ← anyWord
    g.fields
  let ty ← if isBlank && (← sees isRecord) then Ty.other <$> record else g.ty true
  return { attributes, visibility := vis, name, ty }

def namedFields (g : Nested) : Reader Fields := do
  let parts ← group .brace (commaList (field g))
  return .named (parts.map (·.1)) ((parts.getLast?.map (·.2)).getD false)

def unnamedFields (g : Nested) : Reader Fields := do
  let part : Reader Tokens := do
    let attributes ← attributeTokens g
    let vis ← visibility
    return attributes ++ vis.tokens ++ (← g.ty true).tokens
  return .unnamed (withCommas (← group .paren (commaList part)))

def recordBody (g : Nested) : Reader (Tokens × Fields) := do
  let isBefore ← sees (Stream.isWord "where")
  let before ← whereClause g
  if !isBefore && (← sees (Stream.isOpen .paren)) then
    let fields ← unnamedFields g
    let isBehind ← sees (Stream.isWord "where")
    let behind ← whereClause g
    if !(← sees (Stream.isMark ";")) then
      expectedOneOf (if isBehind then ["`;`"] else ["`where`", "`;`"])
    let _ ← mark ";"
    return (behind, fields)
  if ← sees (Stream.isOpen .brace) then return (before, ← namedFields g)
  if ← sees (Stream.isMark ";") then
    let _ ← mark ";"
    return (before, .unit)
  expectedOneOf (if isBefore then ["curly braces", "`;`"]
    else ["`where`", "parentheses", "curly braces", "`;`"])

def receiver (g : Nested) : Reader Receiver := do
  let reference ←
    if ← sees (Stream.isMark "&") then
      let _ ← mark "&"
      pure (some (← lifetime?))
    else pure none
  let mutable ← word? "mut"
  let _ ← word "self"
  let colon ← if reference.isSome then pure [] else mark? ":"
  let ty ← if colon.isEmpty then pure none else some <$> g.ty true
  return { reference, mutable := !mutable.isEmpty, ty }

def paramForm (g : Nested) (before : List Param) : Reader ParamForm := do
  if ← sees (Stream.isMark "...") then return .variadic (← mark "...")
  if let some r ← optional (receiver g) then
    if before.any (·.form.isReceiver) then refuse "unexpected second method receiver"
    if !before.isEmpty then refuse "unexpected method receiver"
    return .receiver r
  if ← sees fun s => s.isIdent && s.second (Stream.isMark "<") then
    return .typed [.ident "_"] (← g.ty true)
  let pattern ← g.pattern
  let colon ← mark ":"
  if ← sees (Stream.isMark "...") then
    return .variadic (pattern.tokens ++ colon ++ (← mark "..."))
  return .typed pattern.tokens (← g.ty true)

/-- The parameters of a function; a variadic one is the last. -/
def params (g : Nested) : Reader (List Param) :=
  group .paren do
    let found ← loop [] fun done => do
      if ← atEnd then return (done, false)
      let attributes ← attributeTokens g
      let form ← paramForm g done
      let comma := !(← atEnd)
      if comma then
        let _ ← mark ","
      return (⟨attributes, form, comma⟩ :: done, comma && !form.isVariadic)
    return found.reverse

/-- The words in front of a function's `fn`. -/
structure FunctionWords where
  isConst : Bool
  isAsync : Bool
  isUnsafe : Bool
  /-- Calling it is safe though it is foreign. -/
  isSafe : Bool
  abi : Tokens

def functionWords (allowSafe : Bool) : Reader FunctionWords := do
  let isConst ← word? "const"
  let isAsync ← word? "async"
  let isUnsafe ← word? "unsafe"
  let isSafe ← if allowSafe && isUnsafe.isEmpty then word? "safe" else pure []
  let abi ← abi?
  let _ ← word "fn"
  return ⟨!isConst.isEmpty, !isAsync.isEmpty, !isUnsafe.isEmpty, !isSafe.isEmpty, abi⟩

def seesFunction (allowSafe : Bool) : Reader Bool := do
  return (← ahead (functionWords allowSafe)).isSome

def signature (g : Nested) (attributes : List Attribute) (vis : Visibility) (isDefault : Bool)
    (words : FunctionWords) : Reader FunctionItem := do
  let at_ ← place
  let name ← ident
  let generics ← genericParams g
  let params ← params g
  let output ← result g true
  let conditions ← whereClause g
  return { attributes, visibility := vis, isDefault, isConst := words.isConst
           isAsync := words.isAsync, isUnsafe := words.isUnsafe, abi := words.abi, name
           place := at_, generics, params, output, conditions, body := [] }

/-- A function behind its visibility. One without a body is kept as it is written since `start`. -/
def function (g : Nested) (start : Stream) (attributes : List Attribute) (vis : Visibility)
    (isDefault : Bool) : Reader BlockMember := do
  let head ← signature g attributes vis isDefault (← functionWords false)
  if ← sees (Stream.isMark ";") then
    let _ ← mark ";"
    return .other (← writtenSince start)
  let (inner, body) ← bodyOf g
  return .function { head with attributes := attributes ++ inner, body }

structure ConstDeclaration where
  tokens : Tokens
  hasValue : Bool
  isGeneric : Bool

def constDeclaration (g : Nested) : Reader ConstDeclaration := do
  let front ← word "const"
  if !(← sees fun s => s.isIdent || s.isWord "_") then expectedOneOf ["identifier", "`_`"]
  let name ← anyWord
  let generics ← genericParams? g
  let colon ← mark ":"
  let ty ← g.ty true
  let value ← initial g
  let conditions ← whereClause? g
  let semicolon ← mark ";"
  return { tokens := front ++ .ident name :: colon ++ ty.tokens ++ value ++ semicolon
           hasValue := !value.isEmpty
           isGeneric := generics.isSome || conditions.isSome }

inductive ConditionPlace where
  | beforeDefinition | behindDefinition | either
deriving DecidableEq, Repr, Inhabited

structure TypeDeclaration where
  tokens : Tokens
  isDefined : Bool
  /-- It may have bounds; there is a colon at least. -/
  isBounded : Bool

def typeDeclaration (g : Nested) (conditions : ConditionPlace) : Reader TypeDeclaration := do
  let front ← word "type"
  let name ← ident
  let generics ← genericParams g
  let colon ← mark? ":"
  let isStop (s : Stream) : Bool := s.isWord "where" || s.isMark "=" || s.isMark ";"
  let bounds ← if colon.isEmpty then pure [] else loop [] fun done => do
    if ← sees isStop then return (done, false)
    let ts ← paramBound g
    if ← sees isStop then return (done ++ ts, false)
    return (done ++ ts ++ (← mark "+"), true)
  let before ← if conditions == .behindDefinition then pure none else whereClause? g
  let equals ← mark? "="
  let ty ← if equals.isEmpty then pure [] else Ty.tokens <$> g.ty true
  let behind ←
    if conditions == .behindDefinition || (conditions == .either && before.isNone) then
      whereClause? g
    else pure none
  let semicolon ← mark ";"
  return { tokens := front ++ .ident name :: generics ++
             (if bounds.isEmpty then [] else colon ++ bounds) ++ before.getD [] ++ equals ++ ty ++
             behind.getD [] ++ semicolon
           isDefined := !equals.isEmpty
           isBounded := !colon.isEmpty }

/-- What ends a macro call that is no statement: a semicolon, unless it is in braces. -/
def macroArguments : Reader Tokens := do
  let (d, inner) ← anyGroup
  let semicolon ← if d == .brace then pure [] else mark ";"
  return Tokens.enclose d inner ++ semicolon

def memberMacro : Reader Tokens := do
  let path ← plainPath
  return path.tokens ++ (← mark "!") ++ (← macroArguments)

/-- A macro call that stands for items; it may give a name. -/
def itemMacro : Reader Tokens := do
  let path ← plainPath
  let bang ← mark "!"
  let name ← whenSeen (fun s => s.isIdent || s.isWord "try") do return [.ident (← anyWord)]
  return path.tokens ++ bang ++ name ++ (← macroArguments)

def Stream.isMacroPath (s : Stream) : Bool :=
  s.isIdent || ["self", "super", "crate"].any s.isWord || s.isMark "::"

def macroStarts : List String := ["identifier", "`self`", "`super`", "`crate`", "`::`"]

end RecordViews.Grammar
