import RecordViews.Grammar.Declarations

/-!
Reading the members of blocks, traits and foreign blocks. Members that only the compiler's own
grammar knows are kept as they are written.
-/

namespace RecordViews.Grammar

/-- The tokens of a part, or those written since `start` if it is not known any further. -/
def keptOr (start : Stream) (isKnown : Bool) (ts : Tokens) : Reader Tokens :=
  if isKnown then pure ts else writtenSince start

def blockMember (g : Nested) : Reader BlockMember := do
  let start ← here
  let attributes ← outerAttributes g
  let vis ← visibility
  let isDefault ← whenSeen (fun s => s.isWord "default" && !s.second (Stream.isMark "!"))
    (word "default")
  if ← seesFunction false then return ← function g start attributes vis (!isDefault.isEmpty)
  let front := Attribute.outerTokens attributes ++ vis.tokens ++ isDefault
  if ← sees (Stream.isWord "const") then
    let c ← constDeclaration g
    return .other (← keptOr start (c.hasValue && !c.isGeneric) (front ++ c.tokens))
  if ← sees (Stream.isWord "type") then
    let t ← typeDeclaration g .behindDefinition
    return .other (← keptOr start (t.isDefined && !t.isBounded) (front ++ t.tokens))
  let isPlain := vis.isInherited && isDefault.isEmpty
  if isPlain && (← sees Stream.isMacroPath) then return .other (front ++ (← memberMacro))
  expectedOneOf ((if isDefault.isEmpty then ["`default`"] else []) ++
    ["`fn`", "`const`", "`type`"] ++ if isPlain then macroStarts else [])

def traitFunction (g : Nested) (attributes : List Attribute) : Reader Tokens := do
  let head ← signature g attributes .inherited false (← functionWords false)
  if ← sees (Stream.isMark ";") then return head.headTokens ++ (← mark ";")
  if !(← sees (Stream.isOpen .brace)) then expectedOneOf ["curly braces", "`;`"]
  let (inner, body) ← bodyOf g
  return { head with attributes := attributes ++ inner, body : FunctionItem }.tokens

def traitMember (g : Nested) : Reader Tokens := do
  let start ← here
  let attributes ← outerAttributes g
  let vis ← visibility
  let isDefault ← word? "default"
  let isPlain := vis.isInherited && isDefault.isEmpty
  let front := Attribute.outerTokens attributes
  if ← seesFunction false then
    let ts ← traitFunction g attributes
    return ← keptOr start isPlain ts
  if ← sees (Stream.isWord "const") then
    let c ← constDeclaration g
    return ← keptOr start (isPlain && !c.isGeneric) (front ++ c.tokens)
  if ← sees (Stream.isWord "type") then
    let t ← typeDeclaration g .behindDefinition
    return ← keptOr start isPlain (front ++ t.tokens)
  if isPlain && (← sees Stream.isMacroPath) then return front ++ (← memberMacro)
  expectedOneOf (["`fn`", "`const`", "`type`"] ++ if isPlain then macroStarts else [])

/-- A foreign function behind its visibility. One that has a body, or is safe, is kept as it is
written. -/
def foreignFunction (g : Nested) (start : Stream) (attributes : List Attribute)
    (vis : Visibility) : Reader Tokens := do
  let words ← functionWords true
  let head ← signature g attributes vis false words
  if ← sees (Stream.isOpen .brace) then
    let _ ← bodyOf g
    writtenSince start
  else
    let semicolon ← mark ";"
    keptOr start (!words.isSafe) (head.headTokens ++ semicolon)

def foreignStatic (g : Nested) (start : Stream) (front : Tokens) : Reader Tokens := do
  let isUnsafe ← word? "unsafe"
  let isSafe ← if isUnsafe.isEmpty then word? "safe" else pure []
  let words ← followedBy (word "static") (word? "mut")
  let name ← ident
  let colon ← mark ":"
  let ty ← g.ty true
  let value ← initial g
  let semicolon ← mark ";"
  keptOr start (isUnsafe.isEmpty && isSafe.isEmpty && value.isEmpty)
    (front ++ words ++ .ident name :: colon ++ ty.tokens ++ semicolon)

def foreignMember (g : Nested) : Reader Tokens := do
  let start ← here
  let attributes ← outerAttributes g
  let vis ← visibility
  if ← seesFunction true then return ← foreignFunction g start attributes vis
  let front := Attribute.outerTokens attributes ++ vis.tokens
  if ← sees fun s => s.isWord "static" ||
      ((s.isWord "unsafe" || s.isWord "safe") && s.second (Stream.isWord "static")) then
    return ← foreignStatic g start front
  if ← sees (Stream.isWord "type") then
    let t ← typeDeclaration g .either
    return ← keptOr start (!t.isDefined && !t.isBounded) (front ++ t.tokens)
  if vis.isInherited && (← sees Stream.isMacroPath) then return front ++ (← memberMacro)
  expectedOneOf (["`fn`", "`static`", "`type`"] ++ if vis.isInherited then macroStarts else [])

end RecordViews.Grammar
