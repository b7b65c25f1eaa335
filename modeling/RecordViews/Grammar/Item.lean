import RecordViews.Grammar.Tree

/-!
Items of source text. Records, blocks of functions and modules keep their parts; every other item
is its tokens. `Item.tokens` writes an item back.
-/

namespace RecordViews.Grammar

inductive Visibility where
  | inherited
  | everywhere
  /-- `within` if the place is named as `in path`. -/
  | restricted (within : Bool) (path : Path)
deriving DecidableEq, Repr, Inhabited

def Visibility.tokens : Visibility → Tokens
  | .inherited => []
  | .everywhere => [.ident "pub"]
  | .restricted within path =>
    .ident "pub" :: Tokens.parens ((if within then [.ident "in"] else []) ++ path.tokens)

structure Field where
  attributes : List Attribute
  visibility : Visibility
  name : String
  ty : Ty
deriving DecidableEq, Repr, Inhabited

def Field.tokens (f : Field) : Tokens :=
  Attribute.outerTokens f.attributes ++ f.visibility.tokens ++
    .ident f.name :: .punct ':' false :: f.ty.tokens

/-- The fields of a record; `comma` if the last named one has a comma behind it. -/
inductive Fields where
  | named (fields : List Field) (comma : Bool)
  | unnamed (fields : Tokens)
  | unit
deriving DecidableEq, Repr, Inhabited

def Fields.tokens : Fields → Tokens
  | .named fields comma =>
    Tokens.braces (Tokens.commaSeparated (fields.map Field.tokens) ++
      if comma then Tokens.comma else [])
  | .unnamed fields => Tokens.parens fields
  | .unit => []

/-- The declaration of a record. `place` is how much of the text is left at its name. -/
structure RecordItem where
  attributes : List Attribute
  visibility : Visibility
  name : String
  place : Nat
  generics : Tokens
  conditions : Tokens
  fields : Fields
deriving DecidableEq, Repr, Inhabited

namespace RecordItem

def tokens (r : RecordItem) : Tokens :=
  Attribute.outerTokens r.attributes ++ r.visibility.tokens ++ .ident "struct" ::
    .ident r.name :: r.generics ++
    match r.fields with
    | .named .. => r.conditions ++ r.fields.tokens
    | .unnamed _ | .unit => r.fields.tokens ++ r.conditions ++ [.punct ';' false]

def isGeneric (r : RecordItem) : Bool :=
  !r.generics.isEmpty

end RecordItem

structure Receiver where
  /-- Whether it is a reference, and its lifetime. -/
  reference : Option (Option String)
  mutable : Bool
  ty : Option Ty
deriving DecidableEq, Repr, Inhabited

def Receiver.tokens (r : Receiver) : Tokens :=
  (r.reference.elim [] fun name => .punct '&' false :: name.elim [] Tokens.lifetime) ++
    (if r.mutable then [.ident "mut"] else []) ++ .ident "self" ::
    r.ty.elim [] fun t => .punct ':' false :: t.tokens

inductive ParamForm where
  | receiver (r : Receiver)
  | typed (pattern : Tokens) (ty : Ty)
  | variadic (tokens : Tokens)
deriving DecidableEq, Repr, Inhabited

def ParamForm.isReceiver : ParamForm → Bool
  | .receiver _ => true
  | _ => false

def ParamForm.isVariadic : ParamForm → Bool
  | .variadic _ => true
  | _ => false

/-- A parameter; `comma` if a comma is behind it. -/
structure Param where
  attributes : Tokens
  form : ParamForm
  comma : Bool
deriving DecidableEq, Repr, Inhabited

def Param.tokens (p : Param) : Tokens :=
  p.attributes ++
    (match p.form with
    | .receiver r => r.tokens
    | .typed pattern ty => pattern ++ .punct ':' false :: ty.tokens
    | .variadic tokens => tokens) ++
    if p.comma then Tokens.comma else []

structure FunctionItem where
  attributes : List Attribute
  visibility : Visibility
  isDefault : Bool
  isConst : Bool
  isAsync : Bool
  isUnsafe : Bool
  abi : Tokens
  name : String
  place : Nat
  generics : Tokens
  params : List Param
  output : Option Ty
  conditions : Tokens
  body : Tokens
deriving DecidableEq, Repr, Inhabited

namespace FunctionItem

def flag (on : Bool) (word : String) : Tokens :=
  if on then [.ident word] else []

def outputTokens (output : Option Ty) : Tokens :=
  output.elim [] fun t => Token.operator ['-', '>'] ++ t.tokens

def headTokens (f : FunctionItem) : Tokens :=
  Attribute.outerTokens f.attributes ++ f.visibility.tokens ++ flag f.isDefault "default" ++
    flag f.isConst "const" ++ flag f.isAsync "async" ++ flag f.isUnsafe "unsafe" ++ f.abi ++
    .ident "fn" :: .ident f.name :: f.generics ++ Tokens.parens (f.params.flatMap Param.tokens) ++
    outputTokens f.output ++ f.conditions

def tokens (f : FunctionItem) : Tokens :=
  f.headTokens ++ Tokens.braces (Attribute.innerTokens f.attributes ++ f.body)

def receiver? (f : FunctionItem) : Option Receiver :=
  f.params.findSome? fun p => match p.form with
    | .receiver r => some r
    | _ => none

def paramTypes (f : FunctionItem) : List Ty :=
  f.params.filterMap fun p => match p.form with
    | .typed _ ty => some ty
    | _ => none

end FunctionItem

inductive BlockMember where
  | function (f : FunctionItem)
  | other (tokens : Tokens)
deriving DecidableEq, Repr, Inhabited

def BlockMember.tokens : BlockMember → Tokens
  | .function f => f.tokens
  | .other tokens => tokens

structure BlockItem where
  attributes : List Attribute
  isDefault : Bool
  isUnsafe : Bool
  generics : Tokens
  /-- The trait that the block implements, with a mark in front if it is denied. -/
  traitRef : Option Tokens
  selfType : Ty
  conditions : Tokens
  members : List BlockMember
deriving DecidableEq, Repr, Inhabited

def BlockItem.tokens (b : BlockItem) : Tokens :=
  Attribute.outerTokens b.attributes ++ FunctionItem.flag b.isDefault "default" ++
    FunctionItem.flag b.isUnsafe "unsafe" ++ .ident "impl" :: b.generics ++
    (b.traitRef.elim [] fun t => t ++ [.ident "for"]) ++ b.selfType.tokens ++ b.conditions ++
    Tokens.braces (Attribute.innerTokens b.attributes ++ b.members.flatMap BlockMember.tokens)

structure ModuleHead where
  attributes : List Attribute
  visibility : Visibility
  isUnsafe : Bool
  name : String
deriving DecidableEq, Repr, Inhabited

inductive Item where
  | record (r : RecordItem)
  | block (b : BlockItem)
  | module (head : ModuleHead) (items : List Item)
  | other (tokens : Tokens)
deriving Repr, Inhabited

namespace Item

def moduleTokens (head : ModuleHead) (inner : Tokens) : Tokens :=
  Attribute.outerTokens head.attributes ++ head.visibility.tokens ++
    FunctionItem.flag head.isUnsafe "unsafe" ++ .ident "mod" :: .ident head.name ::
    Tokens.braces (Attribute.innerTokens head.attributes ++ inner)

mutual

def tokens : Item → Tokens
  | .record r => r.tokens
  | .block b => b.tokens
  | .module head items => moduleTokens head (listTokens items)
  | .other ts => ts

def listTokens : List Item → Tokens
  | [] => []
  | item :: rest => item.tokens ++ listTokens rest

end

end Item

structure SourceFile where
  /-- The attributes of the file itself. -/
  attributes : List Attribute
  items : List Item
deriving Repr, Inhabited

end RecordViews.Grammar
