import RecordViews.Grammar.Members

/-!
Reading items and whole files. `Nested.level n` reads what is nested at most `n` deep; every step
down takes a token first or one of a few fixed turns, so a small multiple of the number of tokens
is depth enough for any text.
-/

namespace RecordViews.Grammar

def innerParts {α : Type} (g : Nested) (member : Reader α) : Reader (List Attribute × List α) :=
  group .brace do
    let attributes ← innerAttributes g
    return (attributes, ← untilEnd member)

def innerTokens (g : Nested) (member : Reader Tokens) : Reader Tokens := do
  let (attributes, members) ← innerParts g member
  return Tokens.braces (attributes.flatMap Attribute.tokens ++ members.flatten)

/-- A block behind its attributes. One that has visibility, holds for constants or implements no
path is kept as it is written. -/
def blockItem (g : Nested) (start : Stream) (attributes : List Attribute) : Reader Item := do
  let vis ← visibility
  let isDefault ← word? "default"
  let isUnsafe ← word? "unsafe"
  let _ ← word "impl"
  let generics ← if ← sees Stream.isParams then genericParams g else pure []
  let isMaybe (s : Stream) : Bool := s.isMark "?" && s.second (Stream.isWord "const")
  let constness ← followedBy (whenSeen isMaybe (mark "?")) (word? "const")
  let denied ← whenSeen (fun s => s.isMark "!" && !s.second (Stream.isOpen .brace)) (mark "!")
  let first ← g.ty true
  let isFor ← word? "for"
  let selfType ← if isFor.isEmpty then pure first else g.ty true
  if isFor.isEmpty && !denied.isEmpty then refuse "inherent impls cannot be negative"
  let conditions ← whereClause g
  let (inner, members) ← innerParts g (blockMember g)
  let isPath := match first with
    | .path _ => true
    | _ => false
  if !vis.isInherited || !constness.isEmpty || !(isFor.isEmpty || isPath) then
    return .other (← writtenSince start)
  return .block
    { attributes := attributes ++ inner, isDefault := !isDefault.isEmpty
      isUnsafe := !isUnsafe.isEmpty, generics
      traitRef := if isFor.isEmpty then none else some (denied ++ first.tokens)
      selfType, conditions, members }

/-- A module behind its attributes; one without a body comes out as tokens. -/
def moduleItem (g : Nested) (attributes : List Attribute) : Reader Item := do
  let vis ← visibility
  let isUnsafe ← word? "unsafe"
  let _ ← word "mod"
  let name ← if ← sees (Stream.isWord "try") then anyWord else ident
  let head : ModuleHead := { attributes, visibility := vis, isUnsafe := !isUnsafe.isEmpty, name }
  if ← sees (Stream.isMark ";") then
    let semicolon ← mark ";"
    return .other ((Item.moduleTokens head []).dropLast.dropLast ++ semicolon)
  if !(← sees (Stream.isOpen .brace)) then expectedOneOf ["`;`", "curly braces"]
  let member : Reader Item := do
    let start ← here
    g.item start (← outerAttributes g)
  let (inner, items) ← innerParts g member
  return .module { head with attributes := attributes ++ inner } items

def recordItem (g : Nested) (attributes : List Attribute) (vis : Visibility) : Reader Item := do
  let _ ← word "struct"
  let at_ ← place
  let name ← ident
  let generics ← genericParams g
  let (conditions, fields) ← recordBody g
  return .record
    { attributes, visibility := vis, name, place := at_, generics, conditions, fields }

def traitItem (g : Nested) : Reader Tokens := do
  let front ← followedBy (word? "unsafe") (followedBy (word? "auto") (word "trait"))
  let name ← ident
  let generics ← genericParams g
  let isBody (s : Stream) : Bool := s.isOpen .brace || s.isMark ":" || s.isWord "where"
  let isAlias ← sees fun s => front.length == 1 && s.isMark "="
  if front.length == 1 && !isAlias && !(← sees isBody) then
    expectedOneOf ["curly braces", "`:`", "`where`", "`=`"]
  let equals ← if isAlias then mark "=" else mark? ":"
  let isStop (s : Stream) : Bool := s.isWord "where" || if isAlias then s.isMark ";" else
    s.isOpen .brace
  let bound := if isAlias then Prod.snd <$> g.bound {} else paramBound g
  let bounds ← if equals.isEmpty then pure [] else loop [] fun done => do
    if ← sees isStop then return (done, false)
    let ts ← bound
    if ← sees isStop then return (done ++ ts, false)
    return (done ++ ts ++ (← mark "+"), true)
  let conditions ← whereClause g
  let head := front ++ .ident name :: generics ++
    (if bounds.isEmpty && !isAlias then [] else equals ++ bounds) ++ conditions
  if isAlias then return head ++ (← mark ";")
  return head ++ (← innerTokens g (traitMember g))

/-- The tree of a use declaration; `none` if one of its paths starts at a root, which is allowed
only where `allowRoot` holds. -/
def useTreeOf (g : Nested) (allowRoot : Bool) : Reader (Option Tokens) := do
  let isName (s : Stream) : Bool :=
    s.isIdent || ["self", "super", "crate", "try"].any s.isWord
  if ← sees isName then
    let name ← anyWord
    if ← sees (Stream.isMark "::") then
      let joint ← mark "::"
      return (← g.useTree false).map (.ident name :: joint ++ ·)
    if ← sees (Stream.isWord "as") then
      let front ← word "as"
      if !(← sees fun s => s.isIdent || s.isWord "_") then
        expected "expected identifier or underscore"
      return some (.ident name :: front ++ [.ident (← anyWord)])
    return some [.ident name]
  if ← sees (Stream.isMark "*") then return some (← mark "*")
  if ← sees (Stream.isOpen .brace) then
    let part : Reader (Option Tokens) := do
      let root ← if allowRoot then mark? "::" else pure []
      let tree ← g.useTree (allowRoot && root.isEmpty)
      return if root.isEmpty then tree else none
    let parts ← group .brace (commaList part)
    let trees := parts.mapM fun (tree, comma) => tree.map (·, comma)
    return trees.map fun ts => Tokens.braces (withCommas ts)
  expectedOneOf ["identifier", "`self`", "`super`", "`crate`", "`try`", "`*`", "curly braces"]

/-- A use declaration behind its visibility; `none` if it is known only as it is written. -/
def useItem (g : Nested) : Reader (Option Tokens) := do
  let front ← followedBy (word "use") (mark? "::")
  let tree ← g.useTree (front.length == 1)
  let semicolon ← mark ";"
  return tree.map (front ++ · ++ semicolon)

/-- A static behind its visibility; `none` if it lacks its type or its value. -/
def staticItem (g : Nested) : Reader (Option Tokens) := do
  let words ← followedBy (word "static") (word? "mut")
  let name ← ident
  let colon ← if ← sees (Stream.isMark "=") then pure [] else mark ":"
  let ty ← if colon.isEmpty then pure [] else Ty.tokens <$> g.ty true
  let isBare ← sees fun s => !colon.isEmpty && s.isMark ";"
  let equals ← if isBare then pure [] else mark "="
  let value ← if isBare then pure [] else Expr.tokens <$> g.expr true
  let semicolon ← mark ";"
  if colon.isEmpty || isBare then return none
  return some (words ++ .ident name :: colon ++ ty ++ equals ++ value ++ semicolon)

/-- A variant of an enumeration. Visibility means nothing there. -/
def variant (g : Nested) : Reader Tokens := do
  let attributes ← attributeTokens g
  let _ ← visibility
  let name ← ident
  let fields ←
    if ← sees (Stream.isOpen .brace) then Fields.tokens <$> namedFields g
    else whenSeen (Stream.isOpen .paren) (Fields.tokens <$> unnamedFields g)
  return attributes ++ .ident name :: fields ++ (← initial g)

def sumItem (g : Nested) : Reader Tokens := do
  let isEnum ← sees (Stream.isWord "enum")
  let front ← anyWord
  let name ← ident
  let generics ← genericParams g
  let conditions ← whereClause g
  let parts ← if isEnum then commaGroup .brace (variant g) else Fields.tokens <$> namedFields g
  return .ident front :: .ident name :: generics ++ conditions ++ parts

def libraryItem : Reader Tokens := do
  let front ← followedBy (word "extern") (word "crate")
  let name ← if ← sees (Stream.isWord "self") then anyWord else ident
  let renamed ← whenSeen (Stream.isWord "as") (followedBy (word "as") nameOrBlank)
  return front ++ .ident name :: renamed ++ (← mark ";")

/-- A block of foreign items; it has no visibility. -/
def foreignItem (g : Nested) (vis : Visibility) : Reader Tokens := do
  if !vis.isInherited then refuse "expected `extern`"
  let front ← followedBy (word? "unsafe") abi?
  return front ++ (← innerTokens g (foreignMember g))

def macroItem : Reader Unit := do
  let _ ← word "macro"
  let _ ← ident
  let args ← whenSeen (Stream.isOpen .paren) (groupOf .paren contents)
  if !(← sees (Stream.isOpen .brace)) then
    expectedOneOf (if args.isEmpty then ["parentheses", "curly braces"] else ["curly braces"])
  let _ ← group .brace contents

/-- The words an item can start with, as they are listed in messages. -/
def itemStarts : List String :=
  ["fn", "extern", "use", "static", "const", "unsafe", "mod", "type", "struct", "enum", "union",
   "trait", "auto", "impl", "default", "macro"].map fun w => "`" ++ w ++ "`"

/-- An item of the given word comes next, and it is marked as unsafe. -/
def Stream.isUnsafe (w : String) (s : Stream) : Bool :=
  s.isWord "unsafe" && s.second (Stream.isWord w)

def Stream.isBlock (s : Stream) : Bool :=
  s.isWord "impl" || (s.isWord "default" && !s.second (Stream.isMark "!")) || s.isUnsafe "impl"

def Stream.isTrait (s : Stream) : Bool :=
  let isAuto (t : Stream) : Bool := t.isWord "auto" && t.second (Stream.isWord "trait")
  s.isWord "trait" || isAuto s || s.isUnsafe "trait" || (s.isWord "unsafe" && s.second isAuto)

/-- An item that is neither a record nor holds items or functions, behind its visibility; `none` if
it is known only as it is written. -/
def plainItem (g : Nested) (vis : Visibility) : Reader (Option Tokens) := do
  if ← sees fun s => s.isWord "extern" && s.second (Stream.isWord "crate") then
    return some (← libraryItem)
  if ← sees fun s => s.isWord "extern" || s.isUnsafe "extern" then
    return some (← foreignItem g vis)
  if ← sees (Stream.isWord "use") then return ← useItem g
  if ← sees (Stream.isWord "static") then return ← staticItem g
  if ← sees (Stream.isWord "const") then
    let c ← constDeclaration g
    return if c.hasValue && !c.isGeneric then some c.tokens else none
  if ← sees (Stream.isWord "type") then
    let t ← typeDeclaration g .beforeDefinition
    return if t.isDefined && !t.isBounded then some t.tokens else none
  if ← sees fun s => s.isWord "enum" || (s.isWord "union" && s.second Stream.isIdent) then
    return some (← sumItem g)
  if ← sees Stream.isTrait then return some (← traitItem g)
  if ← sees (Stream.isWord "macro") then
    macroItem
    return none
  if vis.isInherited && (← sees Stream.isMacroPath) then return some (← itemMacro)
  if ← sees (Stream.isWord "unsafe") then
    let _ ← word "unsafe"
    expectedOneOf ["`trait`", "`auto`", "`impl`", "`extern`", "`mod`"]
  expectedOneOf (itemStarts ++ if vis.isInherited then macroStarts else [])

/-- An item behind its attributes, which start at `start`. -/
def itemOf (g : Nested) (start : Stream) (attributes : List Attribute) : Reader Item := do
  let isMember (p : Stream → Bool) : Reader Bool := do
    let r : Reader Bool := do
      let _ ← visibility
      sees p
    return (← ahead r).getD false
  if ← isMember Stream.isBlock then return ← blockItem g start attributes
  if ← isMember fun s => s.isWord "mod" || s.isUnsafe "mod" then return ← moduleItem g attributes
  let vis ← visibility
  if ← seesFunction false then
    return .other (← function g start attributes vis false).tokens
  if ← sees (Stream.isWord "struct") then return ← recordItem g attributes vis
  match ← plainItem g vis with
  | some ts => return .other (Attribute.outerTokens attributes ++ vis.tokens ++ ts)
  | none => return .other (← writtenSince start)

/-- The readers for what is nested at most `n` deep. -/
def Nested.level : Nat → Nested
  | 0 => .none
  | n + 1 =>
    let g := Nested.level n
    { ty := typeOf g, bound := boundOf g, expr := exprOf g, operand := operandOf g
      operators := operatorsOf g, arm := armOf g, pattern := patternOf g, patterns := patternsOf g
      statements := statementsOf g, fields := namedFields g, item := itemOf g
      useTree := useTreeOf g }

def nested {α : Type} (r : Nested → Reader α) : Reader α := fun i =>
  r (Nested.level (4 * i.stream.length + 16)) i

def readType : Reader Ty := nested fun g => g.ty true
def readPath : Reader Path := nested fun g => pathOf g false

/-- One module with its attributes; one without a body comes out as tokens. -/
def readModule : Reader Item := nested fun g => do moduleItem g (← outerAttributes g)

def readFile : Reader SourceFile := nested fun g => do
  let attributes ← innerAttributes g
  let items ← untilEnd do
    let start ← here
    g.item start (← outerAttributes g)
  return { attributes, items }

/-- The text without a byte order mark and a first line that names an interpreter. -/
def withoutPreamble (text : String) : String :=
  let s := text.toList
  let s := if s.head? == some byteOrderMark then s.drop 1 else s
  let opensAttribute (rest : List Char) : Bool :=
    (Lexer.skipBlanks (rest.length + 1) rest).head? == some '['
  match s with
  | '#' :: '!' :: rest =>
    if opensAttribute rest then String.ofList s else String.ofList (s.dropWhile (· != '\n'))
  | _ => String.ofList s

def itemsOfText (text : String) : Except Fault (List Item) :=
  (readText readFile (withoutPreamble text)).map (·.items)

end RecordViews.Grammar
