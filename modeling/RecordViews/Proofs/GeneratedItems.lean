import RecordViews.Proofs.Stripping

/-! Generated code as items. A view is a record with blocks of functions, and a meta type is one
with a block of constants. None of their attributes is a helper, so nothing is taken out of them. -/

namespace RecordViews

open Grammar (Ty Path Item Field RecordItem BlockItem BlockMember FunctionItem Attribute Visibility
  Param Receiver)

def Access.visibility : Access → Visibility
  | .none | .module => .inherited
  | .package => .restricted false (.ofNames ["crate"])
  | .parent => .restricted false (.ofNames ["super"])
  | .everywhere => .everywhere

@[simp] theorem Access.visibility_tokens (a : Access) : a.visibility.tokens = a.tokens := by
  cases a <;> rfl

/-- An attribute in front of what it is about, and no helper. -/
structure Grammar.Attribute.Outer (a : Attribute) : Prop where
  outer : a.inner = false
  other : a.helper? = none

section Outer

variable {as : List Attribute}

theorem outer_of_word {a : Attribute} {word : String} (outer : a.inner = false)
    (path : a.path = .ofNames [word]) (other : word ∉ Helper.all.map Helper.word) : a.Outer := by
  refine ⟨outer, Attribute.helper?_eq_none_iff.2 ?_⟩
  rw [Attribute.isOther, path]
  exact decide_eq_true other

theorem outerTokens_eq (h : ∀ a ∈ as, a.Outer) :
    Attribute.outerTokens as = as.flatMap Attribute.tokens := by
  rw [Attribute.outerTokens, List.filter_eq_self.2 fun a ha => by simp [(h a ha).outer]]

theorem innerTokens_eq (h : ∀ a ∈ as, a.Outer) : Attribute.innerTokens as = [] := by
  rw [Attribute.innerTokens, List.filter_eq_nil_iff.2 fun a ha => by simp [(h a ha).outer]]
  rfl

theorem dropHelpers_outer (h : ∀ a ∈ as, a.Outer) : Attribute.dropHelpers as = as :=
  List.filter_eq_self.2 fun a ha => by simp [(h a ha).other]

end Outer

def literalDoc (literal : String) : Attribute where
  path := .ofNames ["doc"]
  args := .value (Text.stringValue? literal) [.literal literal]

def docAttributes (comment : Option String) : List Attribute :=
  (comment.elim [] docText).map fun line => literalDoc (Text.quote line)

/-- An attribute of one word with tokens in parentheses behind it. -/
def listAttribute (word : String) (inner : Tokens) : Attribute where
  path := .ofNames [word]
  args := .list .paren inner

def allowAttribute (what reason : String) : Attribute :=
  listAttribute "allow" (words what ++ words ", reason =" ++ [stringToken reason])

def deriveAttributes (derives : List Path) : List Attribute :=
  if derives.isEmpty then []
  else [listAttribute "derive" (Tokens.commaSeparated (derives.map Path.tokens))]

theorem literalDoc_outer (literal : String) : (literalDoc literal).Outer :=
  outer_of_word rfl rfl (by decide)

theorem docAttributes_outer (comment : Option String) : ∀ a ∈ docAttributes comment, a.Outer := by
  intro a ha
  obtain ⟨line, -, rfl⟩ := List.mem_map.1 ha
  exact literalDoc_outer _

theorem allowAttribute_outer (what reason : String) : (allowAttribute what reason).Outer :=
  outer_of_word rfl rfl (by decide)

theorem deriveAttributes_outer (derives : List Path) : ∀ a ∈ deriveAttributes derives, a.Outer := by
  intro a ha
  unfold deriveAttributes at ha
  split at ha
  · cases ha
  · obtain rfl := List.mem_singleton.1 ha
    exact outer_of_word rfl rfl (by decide)

@[simp] theorem literalDoc_tokens (literal : String) :
    (literalDoc literal).tokens = docLine (.literal literal) :=
  rfl

@[simp] theorem docAttributes_tokens (comment : Option String) :
    (docAttributes comment).flatMap Attribute.tokens = docTokens comment := by
  simp only [docAttributes, List.flatMap_map, literalDoc_tokens]
  rfl

@[simp] theorem allowAttribute_tokens (what reason : String) :
    (allowAttribute what reason).tokens = allowTokens what reason :=
  rfl

@[simp] theorem deriveAttributes_tokens (derives : List Path) :
    (deriveAttributes derives).flatMap Attribute.tokens = GeneratedRecord.deriveTokens derives := by
  unfold deriveAttributes GeneratedRecord.deriveTokens
  split
  · rfl
  · rw [List.flatMap_singleton]
    rfl

def typedParams : List (String × Ty) → List Param
  | [] => []
  | [f] => [⟨[], .typed [.ident f.1] f.2, false⟩]
  | f :: g :: rest => ⟨[], .typed [.ident f.1] f.2, true⟩ :: typedParams (g :: rest)

theorem typedParam_tokens (f : String × Ty) :
    (typedParams [f]).flatMap Param.tokens = typedField f := by
  simp [typedParams, Param.tokens, typedField]

theorem typedParams_tokens (fields : List (String × Ty)) :
    (typedParams fields).flatMap Param.tokens = Tokens.commaSeparated (fields.map typedField) := by
  induction fields with
  | nil => rfl
  | cons f rest ih =>
    cases rest with
    | nil => rw [typedParam_tokens]; simp [Tokens.commaSeparated]
    | cons g rest =>
      rw [typedParams, List.flatMap_cons, ih]
      simp [Param.tokens, Tokens.commaSeparated, typedField, Tokens.comma]

def selfParam (mutable comma : Bool) : Param where
  attributes := []
  form := .receiver { reference := some none, mutable, ty := none }
  comma

namespace GeneratedFunction

def attributes (f : GeneratedFunction) : List Attribute :=
  match f.body with
  | .defaults _ =>
    [literalDoc "r\" Creates a view with every property set to its default value.\""]
  | .values _ =>
    [literalDoc "r\" Creates a view from its property values.\"",
      allowAttribute "clippy :: too_many_arguments"
        "the constructor takes one argument per property"]
  | .extracts .. =>
    [literalDoc "r\" Creates a view by extracting every property from \x60source\x60.\""]
  | .reads .. | .computes .. => docAttributes f.comment
  | .assigns .. => []
  | .errors _ =>
    [literalDoc "r\" Problems reported while this view was generated.\"",
      listAttribute "doc" [.ident "hidden"]]

def params (f : GeneratedFunction) : List Param :=
  match f.body with
  | .defaults _ | .errors _ => []
  | .values fields => typedParams fields
  | .extracts source _ => typedParams [("source", .reference none false (.path source))]
  | .reads .. | .computes .. => [selfParam false false]
  | .assigns field ty => selfParam true true :: typedParams [(field, ty)]

def output (f : GeneratedFunction) : Option Ty :=
  match f.body with
  | .defaults _ | .values _ | .extracts .. => some (.path (.ofNames ["Self"]))
  | .reads _ ty => some (.reference none false ty)
  | .computes ty _ => some ty
  | .assigns .. => none
  | .errors _ =>
    some (.reference (some "static") false (.other (Tokens.brackets (words "& 'static str"))))

def ownValue (fields : List Tokens) : Tokens :=
  .ident "Self" :: Tokens.braces (Tokens.commaTerminated fields)

def inside (f : GeneratedFunction) : Tokens :=
  match f.body with
  | .defaults fields =>
    ownValue (fields.map fun field =>
      .ident field :: words ": :: core :: default :: Default :: default ( )")
  | .values fields => ownValue (fields.map fun field => [.ident field.1])
  | .extracts _ fields =>
    ownValue (fields.map fun field => .ident field.1 :: .punct ':' false :: field.2)
  | .reads field _ => words "& self ." ++ [.ident field]
  | .computes _ value => value
  | .assigns field _ =>
    words "self ." ++ [.ident field, .punct '=' false, .ident field, .punct ';' false]
  | .errors messages =>
    .punct '&' false ::
      Tokens.brackets (Tokens.commaSeparated (messages.map fun m => [stringToken m]))

/-- A function of source text without generic parameters. -/
def plain (attributes : List Attribute) (access : Access) (name : String) (params : List Param)
    (output : Option Ty) (body : Tokens) : FunctionItem where
  attributes
  visibility := access.visibility
  isDefault := false
  isConst := false
  isAsync := false
  isUnsafe := false
  abi := []
  name
  place := 0
  generics := []
  params
  output
  conditions := []
  body

theorem plain_tokens {as : List Attribute} (h : ∀ a ∈ as, a.Outer) (access : Access)
    (name : String) (params : List Param) (output : Option Ty) (body : Tokens) :
    (plain as access name params output body).tokens =
      as.flatMap Attribute.tokens ++ (access.tokens ++ .ident "fn" :: .ident name ::
        Tokens.parens (params.flatMap Param.tokens) ++ FunctionItem.outputTokens output) ++
        Tokens.braces body := by
  simp [FunctionItem.tokens, FunctionItem.headTokens, plain, outerTokens_eq h, innerTokens_eq h,
    FunctionItem.flag]

def item (f : GeneratedFunction) : FunctionItem :=
  plain f.attributes f.access f.name f.params f.output f.inside

theorem attributes_outer (f : GeneratedFunction) : ∀ a ∈ f.attributes, a.Outer := by
  unfold attributes
  cases f.body with
  | reads field ty => exact docAttributes_outer _
  | computes ty value => exact docAttributes_outer _
  | assigns field ty => nofun
  | values fields =>
    exact List.forall_mem_cons.2 ⟨literalDoc_outer _,
      List.forall_mem_singleton.2 (allowAttribute_outer _ _)⟩
  | errors messages =>
    exact List.forall_mem_cons.2 ⟨literalDoc_outer _,
      List.forall_mem_singleton.2 (outer_of_word rfl rfl (by decide))⟩
  | _ => exact List.forall_mem_singleton.2 (literalDoc_outer _)

theorem item_tokens (f : GeneratedFunction) : f.item.tokens = f.tokens := by
  rw [item, plain_tokens f.attributes_outer]
  unfold tokens attributes params output inside
  cases f.body with
  | defaults fields => rfl
  | values fields =>
    dsimp only
    rw [typedParams_tokens]
    rfl
  | extracts source fields =>
    dsimp only
    rw [typedParam_tokens]
    rfl
  | reads field ty =>
    dsimp only
    rw [docAttributes_tokens]
    rfl
  | computes ty value =>
    dsimp only
    rw [docAttributes_tokens]
    rfl
  | assigns field ty =>
    dsimp only
    rw [List.flatMap_cons, typedParam_tokens, FunctionItem.outputTokens, Option.elim_none]
    rfl
  | errors messages => rfl

end GeneratedFunction

/-- A record of source text without generic parameters. -/
def plainRecord (attributes : List Attribute) (access : Access) (name : String)
    (fields : Grammar.Fields) : RecordItem where
  attributes
  visibility := access.visibility
  name
  place := 0
  generics := []
  conditions := []
  fields

def plainBlock (attributes : List Attribute) (traitRef : Option Tokens) (name : String)
    (members : List BlockMember) : BlockItem where
  attributes
  isDefault := false
  isUnsafe := false
  generics := []
  traitRef
  selfType := .path (.ofNames [name])
  conditions := []
  members

/-- Named fields of a record as they are written in generated code. -/
def plainFields (fields : List (String × Ty)) : Grammar.Fields :=
  .named (fields.map fun f => ⟨[], .inherited, f.1, f.2⟩) (!fields.isEmpty)

theorem commaTerminated_eq (parts : List Tokens) :
    Tokens.commaTerminated parts =
      Tokens.commaSeparated parts ++ if parts.isEmpty then [] else Tokens.comma := by
  induction parts with
  | nil => rfl
  | cons part rest ih =>
    cases rest with
    | nil => simp [Tokens.commaTerminated, Tokens.commaSeparated]
    | cons next rest =>
      rw [Tokens.commaTerminated, List.flatMap_cons, ← Tokens.commaTerminated, ih]
      simp [Tokens.commaSeparated]

theorem plainFields_tokens (fields : List (String × Ty)) :
    (plainFields fields).tokens =
      Tokens.braces (Tokens.commaTerminated (fields.map typedField)) := by
  rw [commaTerminated_eq, plainFields, Grammar.Fields.tokens, List.map_map]
  cases fields <;> rfl

structure Renders (items : List Item) (tokens : Tokens) : Prop where
  text : Item.listTokens items = tokens
  free : items.map Item.withoutHelpers = items

theorem listTokens_append (items more : List Item) :
    Item.listTokens (items ++ more) = Item.listTokens items ++ Item.listTokens more := by
  induction items with
  | nil => rfl
  | cons item rest ih => rw [List.cons_append, Item.listTokens, ih, Item.listTokens,
      List.append_assoc]

section Renders

variable {items more : List Item} {tokens behind : Tokens}

theorem Renders.nil : Renders [] [] :=
  ⟨rfl, rfl⟩

theorem Renders.append (h : Renders items tokens) (rest : Renders more behind) :
    Renders (items ++ more) (tokens ++ behind) :=
  ⟨by rw [listTokens_append, h.text, rest.text], by rw [List.map_append, h.free, rest.free]⟩

theorem Renders.flatMap {α : Type} {l : List α} {f : α → List Item} {g : α → Tokens}
    (h : ∀ a ∈ l, Renders (f a) (g a)) : Renders (l.flatMap f) (l.flatMap g) := by
  induction l with
  | nil => exact .nil
  | cons a rest ih =>
    obtain ⟨first, others⟩ := List.forall_mem_cons.1 h
    exact first.append (ih others)

theorem renders_record {as : List Attribute} (h : ∀ a ∈ as, a.Outer) (access : Access)
    (name : String) (fields : List (String × Ty)) :
    Renders [.record (plainRecord as access name (plainFields fields))]
      (as.flatMap Attribute.tokens ++ access.tokens ++ .ident "struct" :: .ident name ::
        Tokens.braces (Tokens.commaTerminated (fields.map typedField))) := by
  constructor
  · rw [← plainFields_tokens, plainFields]
    simp [Item.listTokens, Item.tokens, RecordItem.tokens, plainRecord, outerTokens_eq h]
  · rw [List.map_singleton, Item.withoutHelpers, plainRecord, dropHelpers_outer h]

theorem renders_unit {as : List Attribute} (h : ∀ a ∈ as, a.Outer) (access : Access)
    (name : String) :
    Renders [.record (plainRecord as access name .unit)]
      (as.flatMap Attribute.tokens ++ access.tokens ++
        [.ident "struct", .ident name, .punct ';' false]) := by
  constructor
  · simp [Item.listTokens, Item.tokens, RecordItem.tokens, plainRecord, outerTokens_eq h,
      Grammar.Fields.tokens]
  · rw [List.map_singleton, Item.withoutHelpers, plainRecord, dropHelpers_outer h]

theorem renders_block {as : List Attribute} (h : ∀ a ∈ as, a.Outer) {members : List BlockMember}
    (inside : ∀ m ∈ members, ∀ a ∈ m.attributes, a.Outer) (traitRef : Option Tokens)
    (name : String) :
    Renders [.block (plainBlock as traitRef name members)]
      (as.flatMap Attribute.tokens ++ .ident "impl" ::
        (traitRef.elim [] fun t => t ++ [.ident "for"]) ++ .ident name ::
        Tokens.braces (members.flatMap BlockMember.tokens)) := by
  constructor
  · simp [Item.listTokens, Item.tokens, BlockItem.tokens, plainBlock, outerTokens_eq h,
      innerTokens_eq h, FunctionItem.flag, Ty.tokens, Path.tokens, Path.ofNames,
      Grammar.Segment.tokens]
  · have kept : members.map BlockMember.withoutHelpers = members := by
      refine map_eq_self_iff.2 fun m hm => ?_
      cases m with
      | function f =>
        have own : ∀ a ∈ f.attributes, a.Outer := inside _ hm
        rw [BlockMember.withoutHelpers, dropHelpers_outer own]
      | other tokens => rfl
    rw [List.map_singleton, Item.withoutHelpers, plainBlock, kept]

end Renders

namespace GeneratedRecord

def traitFunction (name : String) (params : List Param) (body : Tokens) : BlockMember :=
  .function (GeneratedFunction.plain [] .none name params (some (.path (.ofNames ["Self"]))) body)

def conversionItem (r : GeneratedRecord) : Item :=
  let source : Ty := .reference none false (.path r.source)
  .block (plainBlock []
    (some (words ":: core :: convert :: From <" ++ source.tokens ++ words ">")) r.name
    [traitFunction "from" (typedParams [("source", source)])
      (words "Self :: from_source ( source )")])

def defaultItem (r : GeneratedRecord) : Item :=
  .block (plainBlock [] (some (words ":: core :: default :: Default")) r.name
    [traitFunction "default" [] (words "Self :: empty ( )")])

def items (r : GeneratedRecord) (derives : List Path) : List Item :=
  .record (plainRecord
    (docAttributes (some ("View of \x60" ++ r.sourceName.text ++ "\x60.")) ++
      deriveAttributes derives) r.access r.name (plainFields r.fields)) ::
  .block (plainBlock [allowAttribute "dead_code" "generated accessors may go unused"] none r.name
    (r.functions.map fun f => .function f.item)) ::
  ((if r.convertible then [r.conversionItem] else []) ++
    if r.defaultable then [r.defaultItem] else [])

theorem renders_trait (traitRef : Tokens) (name trait : String) (params : List Param)
    (body : Tokens) :
    Renders [.block (plainBlock [] (some traitRef) name [traitFunction trait params body])]
      (.ident "impl" :: traitRef ++ .ident "for" :: .ident name ::
        Tokens.braces (.ident "fn" :: .ident trait ::
          Tokens.parens (params.flatMap Param.tokens) ++ words "-> Self" ++
            Tokens.braces body)) := by
  have none : ∀ a ∈ (traitFunction trait params body).attributes, a.Outer := List.forall_mem_nil _
  have made := renders_block (List.forall_mem_nil _) (List.forall_mem_singleton.2 none)
    (some traitRef) name
  have inside : (traitFunction trait params body).tokens =
      .ident "fn" :: .ident trait :: Tokens.parens (params.flatMap Param.tokens) ++
        words "-> Self" ++ Tokens.braces body :=
    GeneratedFunction.plain_tokens (List.forall_mem_nil _) ..
  rw [List.flatMap_singleton, inside] at made
  simpa using made

theorem renders_conversion (r : GeneratedRecord) : Renders [r.conversionItem] r.conversion := by
  have made := renders_trait (words ":: core :: convert :: From <" ++
    (Ty.reference none false (.path r.source)).tokens ++ words ">") r.name "from"
    (typedParams [("source", .reference none false (.path r.source))])
    (words "Self :: from_source ( source )")
  rw [typedParam_tokens] at made
  refine ⟨made.text.trans ?_, made.free⟩
  simp only [conversion, List.append_assoc, List.cons_append]
  rfl

theorem renders_default (r : GeneratedRecord) : Renders [r.defaultItem] r.defaultValue :=
  renders_trait (words ":: core :: default :: Default") r.name "default" []
    (words "Self :: empty ( )")

/-- A view is a record, a block of its functions and the traits that it implements. -/
theorem renders_items (r : GeneratedRecord) (derives : List Path) :
    Renders (r.items derives) (r.tokens derives) := by
  have record := renders_record (List.forall_mem_append.2
    ⟨docAttributes_outer (some ("View of \x60" ++ r.sourceName.text ++ "\x60.")),
      deriveAttributes_outer derives⟩) r.access r.name r.fields
  rw [List.flatMap_append, docAttributes_tokens, deriveAttributes_tokens] at record
  have own (f : GeneratedFunction) :
      ∀ a ∈ (BlockMember.function f.item).attributes, a.Outer := f.attributes_outer
  have block := renders_block
    (List.forall_mem_singleton.2
      (allowAttribute_outer "dead_code" "generated accessors may go unused"))
    (List.forall_mem_map.2 fun f (_ : f ∈ r.functions) => own f) none r.name
  rw [List.flatMap_singleton, allowAttribute_tokens, List.flatMap_map,
    show (fun f => BlockMember.tokens (.function f.item)) = GeneratedFunction.tokens from
      funext GeneratedFunction.item_tokens] at block
  have converted : Renders (if r.convertible then [r.conversionItem] else [])
      (if r.convertible then r.conversion else []) := by
    split
    · exact r.renders_conversion
    · exact .nil
  have defaulted : Renders (if r.defaultable then [r.defaultItem] else [])
      (if r.defaultable then r.defaultValue else []) := by
    split
    · exact r.renders_default
    · exact .nil
  have made := record.append (block.append (converted.append defaulted))
  refine ⟨made.text.trans ?_, made.free⟩
  simp only [tokens, List.append_assoc, List.cons_append]
  rfl

/-- The tokens are those of the items of the record: they declare its fields, and behind them its
functions in one block. -/
structure Printed (r : GeneratedRecord) (derives : List Path) (tokens : Tokens) : Prop where
  items : Renders (r.items derives) tokens
  parts : ∃ head between tail, tokens =
    head ++ .ident "struct" :: .ident r.name ::
      Tokens.braces (Tokens.commaTerminated (r.fields.map typedField)) ++
    between ++ .ident "impl" :: .ident r.name ::
      Tokens.braces (r.functions.flatMap GeneratedFunction.tokens) ++ tail

theorem printed (r : GeneratedRecord) (derives : List Path) :
    r.Printed derives (r.tokens derives) := by
  refine ⟨r.renders_items derives,
    docTokens (some ("View of `" ++ r.sourceName.text ++ "`.")) ++ deriveTokens derives ++
      r.access.tokens,
    allowTokens "dead_code" "generated accessors may go unused",
    (if r.convertible then r.conversion else []) ++ if r.defaultable then r.defaultValue else [],
    ?_⟩
  simp only [tokens, List.append_assoc, List.cons_append]
  rfl

end GeneratedRecord

namespace GeneratedConstants

def items (g : GeneratedConstants) : List Item := [
  .record (plainRecord
    (docAttributes (some ("Member names of \x60" ++ g.sourceName.text ++ "\x60.")) ++
      [listAttribute "derive" (words "Debug , Clone , Copy , PartialEq , Eq")])
    g.access g.name .unit),
  .block (plainBlock [allowAttribute "dead_code" "generated constants may go unused"] none g.name
    (g.constants.map fun c => .other (constantTokens c)))]

/-- A meta type is a record without fields and a block of constants. -/
theorem renders_items (g : GeneratedConstants) : Renders g.items g.tokens := by
  have record := renders_unit (List.forall_mem_append.2
    ⟨docAttributes_outer (some ("Member names of \x60" ++ g.sourceName.text ++ "\x60.")),
      List.forall_mem_singleton.2 (outer_of_word rfl rfl (by decide) :
        (listAttribute "derive" (words "Debug , Clone , Copy , PartialEq , Eq")).Outer)⟩)
    g.access g.name
  rw [List.flatMap_append, docAttributes_tokens, List.flatMap_singleton] at record
  have without (c : NameConstant) :
      ∀ a ∈ (BlockMember.other (constantTokens c)).attributes, a.Outer := List.forall_mem_nil _
  have block := renders_block
    (List.forall_mem_singleton.2
      (allowAttribute_outer "dead_code" "generated constants may go unused"))
    (List.forall_mem_map.2 fun c (_ : c ∈ g.constants) => without c) none g.name
  rw [List.flatMap_singleton, allowAttribute_tokens, List.flatMap_map] at block
  have made := record.append block
  refine ⟨made.text.trans ?_, made.free⟩
  simp only [tokens, List.append_assoc, List.cons_append]
  rfl

/-- The tokens end in the block of the constants. -/
theorem tokens_block (g : GeneratedConstants) :
    ∃ head, g.tokens = head ++ .ident "impl" :: .ident g.name ::
      Tokens.braces (g.constants.flatMap constantTokens) :=
  ⟨docTokens (some ("Member names of `" ++ g.sourceName.text ++ "`.")) ++
    words "# [ derive ( Debug , Clone , Copy , PartialEq , Eq ) ]" ++ g.access.tokens ++
    words "struct" ++ .ident g.name :: .punct ';' false ::
    allowTokens "dead_code" "generated constants may go unused", by
    simp only [tokens, List.append_assoc, List.cons_append]
    rfl⟩

end GeneratedConstants

theorem Diagnostic.renders_item (d : Diagnostic) : Renders [.other d.tokens] d.tokens :=
  ⟨List.append_nil _, rfl⟩

end RecordViews
