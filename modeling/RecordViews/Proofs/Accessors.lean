import Mathlib.Data.List.Basic
import RecordViews.Proofs.Collected
import RecordViews.Source.Helper

/-! Accessors of a record that is declared more than once. They become members of the first
declaration of its name, and the model keeps the last one. -/

namespace RecordViews

open Grammar (Item FunctionItem Ty)

theorem Model.find?_insertAll_eq (m : Model) (ts : List SourceType) (n : TypeName) :
    (m.insertAll ts).find? n = (ts.filter (·.name.text == n.text)).getLast?.or (m.find? n) := by
  induction ts generalizing m with
  | nil => rfl
  | cons t rest ih =>
    have next : (m.insert t).find? n = if t.name.text = n.text then some t else m.find? n :=
      TypeName.findIn?_insertIn_eq
    rw [insertAll, List.foldl_cons, ← insertAll, ih, next, List.filter_cons]
    by_cases same : t.name.text = n.text
    · simp only [same, beq_self_eq_true, if_true, List.getLast?_cons]
      cases (rest.filter _).getLast? <;> rfl
    · simp only [same, beq_eq_false_iff_ne.2 same, if_false, Bool.false_eq_true]

theorem Model.mem_of_find?_insertAll {ts : List SourceType} {n : TypeName} {t : SourceType}
    (h : (Model.insertAll {} ts).find? n = some t) : t ∈ ts ∧ t.name.text = n.text := by
  rw [find?_insertAll_eq] at h
  have last : (ts.filter (·.name.text == n.text)).getLast? = some t := by
    simpa [Model.find?, TypeName.findIn?] using h
  simpa using List.mem_of_getLast? last

/-- The last of some elements is the last of those among them that satisfy what it does. -/
theorem getLast?_filter_of_imp {α : Type} {p q : α → Bool} {l : List α} {a : α}
    (narrow : ∀ b, q b = true → p b = true) (last : (l.filter p).getLast? = some a)
    (h : q a = true) : (l.filter q).getLast? = some a := by
  obtain ⟨front, split⟩ := List.getLast?_eq_some_iff.1 last
  have twice : (l.filter p).filter q = l.filter q := by
    rw [List.filter_filter]
    refine List.filter_congr fun b _ => ?_
    cases hq : q b with
    | true => simp [narrow b hq]
    | false => rfl
  rw [← twice, split, List.filter_append]
  simp [h]

theorem filter_modifyFirst_self {α : Type} {p : α → Bool} {f : α → α}
    (kept : ∀ a, p (f a) = p a) (l : List α) :
    (modifyFirst p f l).filter p = (l.filter p).modifyHead f := by
  induction l with
  | nil => rfl
  | cons a rest ih =>
    unfold modifyFirst
    cases h : p a with
    | true => simp [h, kept]
    | false => simp [h, ih]

theorem filter_modifyFirst_other {α : Type} {p q : α → Bool} {f : α → α}
    (kept : ∀ a, q (f a) = q a) (apart : ∀ a, p a = true → q a = false) (l : List α) :
    (modifyFirst p f l).filter q = l.filter q := by
  induction l with
  | nil => rfl
  | cons a rest ih =>
    unfold modifyFirst
    cases h : p a with
    | true => simp [kept, apart a h]
    | false => simp [List.filter_cons, ih]

/-- For each record of the name, in order, whether it has the member. -/
def having (n : TypeName) (x : String) (types : List SourceType) : List Bool :=
  (types.filter (·.name == n)).map fun t => (t.member? x).isSome

def markFirst (marks : List Bool) : List Bool :=
  marks.modifyHead fun _ => true

@[simp] theorem markFirst_markFirst (marks : List Bool) :
    markFirst (markFirst marks) = markFirst marks := by
  cases marks <;> rfl

namespace SourceType

theorem member?_isSome (t : SourceType) (x : String) :
    (t.member? x).isSome = (t.members.map (·.name)).contains x := by
  rw [Bool.eq_iff_iff]
  simp [member?, List.find?_isSome]

/-- The record with the member of an accessor, unless it has one of the name. -/
def withAccessor (m : Member) (t : SourceType) : SourceType :=
  if (t.member? m.name).isSome then t else t.addMember m

theorem withAccessor_name (m : Member) (t : SourceType) : (t.withAccessor m).name = t.name := by
  unfold withAccessor
  split <;> rfl

theorem withAccessor_has (m : Member) (t : SourceType) (x : String) :
    ((t.withAccessor m).member? x).isSome = (m.name == x || (t.member? x).isSome) := by
  unfold withAccessor
  split
  · rename_i has
    by_cases same : m.name = x
    · simp [← same, has]
    · simp [same]
  · rw [member?_isSome, member?_isSome, addMember, List.map_append, List.contains_append]
    simp [Bool.or_comm, Bool.beq_eq_decide_eq, eq_comm]

end SourceType

namespace Finding

variable {n owner : TypeName} {x : String} {m : Member} {types types' : List SourceType}

theorem having_attachAccessor (types : List SourceType) (owner : TypeName) (m : Member) :
    having n x (attachAccessor types owner m) =
      if owner = n ∧ m.name = x then markFirst (having n x types) else having n x types := by
  have attached : attachAccessor types owner m =
      modifyFirst (·.name == owner) (·.withAccessor m) types := rfl
  rw [attached, having]
  by_cases own : owner = n
  · subst own
    rw [filter_modifyFirst_self fun t => by rw [t.withAccessor_name m], having]
    cases types.filter (·.name == owner) with
    | nil => simp [markFirst]
    | cons t rest => by_cases same : m.name = x <;> simp [markFirst, same, t.withAccessor_has m]
  · rw [filter_modifyFirst_other fun t => by rw [t.withAccessor_name m]]
    · simp [own, having]
    · intro t named
      rw [beq_iff_eq] at named
      simpa [named] using own

/-- Only the names of records and of their members count. -/
theorem having_congr (h : types.map (fun t => (t.name, t.members.map (·.name))) =
      types'.map fun t => (t.name, t.members.map (·.name))) :
    having n x types = having n x types' := by
  have names (types : List SourceType) : having n x types =
      ((types.map fun t => (t.name, t.members.map (·.name))).filter (·.1 == n)).map
        (·.2.contains x) := by
    rw [having, List.filter_map, List.map_map]
    exact List.map_congr_left fun t _ => t.member?_isSome x
  rw [names, names, h]

theorem having_attachSetter (types : List SourceType) (s : Setter) :
    having n x (attachSetter types s) = having n x types := by
  refine having_congr (modifyFirst_map _ (fun t => ?_) types)
  have names : (modifyFirst s.fits (·.withSetter s.function) t.members).map (·.name) =
      t.members.map (·.name) :=
    modifyFirst_map (f := (·.withSetter s.function)) (·.name) (fun _ => rfl) t.members
  exact congrArg (Prod.mk t.name) names

def isAccessor (n : TypeName) (x : String) : Finding → Bool
  | .accessor owner m => owner == n && m.name == x
  | _ => false

/-- If each step that hits marks the first record and no other step changes anything, the first is
marked in the end if one of them hits. -/
theorem having_foldl {step : List SourceType → Finding → List SourceType} (hits : Finding → Bool)
    (h : ∀ types finding, having n x (step types finding) =
      if hits finding then markFirst (having n x types) else having n x types)
    (findings : List Finding) (types : List SourceType) :
    having n x (findings.foldl step types) =
      if findings.any hits then markFirst (having n x types) else having n x types := by
  induction findings generalizing types with
  | nil => rfl
  | cons finding rest ih =>
    rw [List.foldl_cons, ih, h, List.any_cons]
    cases hits finding <;> simp

theorem having_types (findings : List Finding) :
    having n x (Finding.types findings) =
      if findings.any (isAccessor n x) then markFirst (having n x (declared findings))
      else having n x (declared findings) := by
  unfold Finding.types
  rw [having_foldl (fun _ => false), having_foldl (isAccessor n x)]
  · have none : findings.any (fun _ => false) = false := by simp
    rw [none]
    rfl
  · intro types finding
    cases finding with
    | accessor owner m =>
      simp only [isAccessor, Bool.and_eq_true, beq_iff_eq]
      exact having_attachAccessor types owner m
    | contribution bearer place c => rfl
    | type t => rfl
    | setter s => rfl
    | fault f => rfl
  · intro types finding
    cases finding with
    | setter s => exact having_attachSetter types s
    | contribution bearer place c => rfl
    | type t => rfl
    | accessor owner m => rfl
    | fault f => rfl

end Finding

def Grammar.Item.record? (scope : Scope) : Item → Option SourceType
  | .record r => some (SourceType.ofItem scope r)
  | _ => none

/-- The records that modules declare, in the order in which they are read. -/
def recordsOf (modules : List (Scope × List Item)) : List SourceType :=
  modules.flatMap fun (scope, items) => items.filterMap (Item.record? scope)

namespace Finding

theorem record?_ofContribution (n : TypeName) (place : Nat)
    (reading : Except AttributeFault Contribution) :
    record? (ofContribution n place reading) = none := by
  cases reading <;> rfl

theorem record?_ofRecord (scope : Scope) (r : Grammar.RecordItem) :
    (ofRecord scope r).filterMap record? = [SourceType.ofItem scope r] := by
  have none : ((r.attributes.filterMap (contribution? scope)).map
      (ofContribution (SourceType.nameOf scope r) r.place)).filterMap record? = [] := by
    rw [List.filterMap_eq_nil_iff]
    intro finding inside
    obtain ⟨reading, -, rfl⟩ := List.mem_map.1 inside
    exact record?_ofContribution _ _ reading
  rw [ofRecord, List.filterMap_cons, none]
  rfl

/-- Functions are no records. -/
theorem record?_ofFunction (owner : TypeName) (f : FunctionItem) :
    (ofFunction owner f).filterMap record? = [] := by
  unfold ofFunction
  split
  · rw [List.filterMap_cons, record?_ofContribution]
    rfl
  · rw [List.filterMap_append, List.append_eq_nil_iff]
    constructor
    · cases f.accessor? <;> rfl
    · cases f.setter? owner <;> rfl

theorem record?_ofBlock (scope : Scope) (b : Grammar.BlockItem) :
    (ofBlock scope b).filterMap record? = [] := by
  unfold ofBlock
  split
  · rename_i owner _
    rw [List.filterMap_flatMap, List.flatMap_eq_nil_iff]
    intro member _
    cases member with
    | function f => exact record?_ofFunction owner f
    | other tokens => rfl
  · rfl

theorem declared_ofModules (modules : List (Scope × List Item)) :
    declared (ofModules modules) = recordsOf modules := by
  have records (scope : Scope) (item : Item) : (ofRecordItem scope item).filterMap record? =
      (item.record? scope).toList := by
    cases item with
    | record r => exact record?_ofRecord scope r
    | block b => rfl
    | module head items => rfl
    | other tokens => rfl
  have blocks (scope : Scope) (item : Item) : (ofBlockItem scope item).filterMap record? = [] := by
    cases item with
    | block b => exact record?_ofBlock scope b
    | record r => rfl
    | module head items => rfl
    | other tokens => rfl
  simp only [declared, ofModules, List.filterMap_append, List.filterMap_flatMap, records, blocks]
  simp [recordsOf, List.filterMap_eq_flatMap_toList, List.flatMap_eq_nil_iff]

/-- The function, written in a block of `owner` in one of the modules, reads a member: it borrows
the record, takes nothing else and gives a type that can be stored, and no helper attribute gives it
another part. -/
structure Accesses (modules : List (Scope × List Item)) (module : Scope) (owner : TypeName)
    (f : FunctionItem) : Prop where
  written : ∃ items b, (module, items) ∈ modules ∧ .block b ∈ items ∧
    owner? module b = some owner ∧ .function f ∈ b.members
  unmarked : ∀ a ∈ f.attributes, a.helper? ≠ some .viewProperty
  plain : f.generics = [] ∧ f.isAsync = false ∧ f.isUnsafe = false
  borrows : ∃ lifetime, f.receiver? = some ⟨some lifetime, false, none⟩
  alone : f.paramTypes = []
  gives : ∃ ty, f.output = some ty ∧ ty.isStorable = true

theorem Accesses.found {modules : List (Scope × List Item)} {module : Scope} {f : FunctionItem}
    (h : Accesses modules module owner f) :
    (ofModules modules).any (isAccessor owner (unraw f.name)) = true := by
  obtain ⟨items, b, inside, block, named, member⟩ := h.written
  obtain ⟨generics, async, safe⟩ := h.plain
  obtain ⟨lifetime, receiver⟩ := h.borrows
  obtain ⟨ty, output, storable⟩ := h.gives
  have borrow : f.borrow? = some false := by
    simp [FunctionItem.borrow?, generics, async, safe, receiver]
  obtain ⟨m, reads, name⟩ : ∃ m, f.accessor? = some m ∧ m.name = unraw f.name := by
    simp [FunctionItem.accessor?, borrow, h.alone, output, storable, Member.accessor]
  have unmarked : f.attributes.find? (·.helper? == some .viewProperty) = none := by
    simpa using h.unmarked
  refine List.any_eq_true.2
    ⟨.accessor owner m, List.mem_append_right _ ?_, by simp [isAccessor, name]⟩
  refine List.mem_flatMap.2 ⟨_, inside, List.mem_flatMap.2 ⟨_, block, ?_⟩⟩
  rw [ofBlockItem, ofBlock, named]
  refine List.mem_flatMap.2 ⟨_, member, ?_⟩
  rw [ofMember, ofFunction, unmarked, reads]
  simp

end Finding

namespace SourceUnit

variable {locate : Nat → Location} {scope module : Scope} {items : List Item} {u : SourceUnit}
  {owner : TypeName} {f : FunctionItem}

theorem last_has_member {findings : List Finding} {n : TypeName} {t : SourceType} {x : String}
    (read : ofFindings locate findings = .ok u) (held : u.model.find? n = some t)
    (named : t.name = n) :
    (having n x (Finding.types findings)).getLast? = some (t.member? x).isSome := by
  rw [(ofFindings_ok read).1, Model.find?_insertAll_eq] at held
  have last : ((Finding.types findings).filter (·.name.text == n.text)).getLast? = some t := by
    simpa [Model.find?, TypeName.findIn?] using held
  have own : ((Finding.types findings).filter (·.name == n)).getLast? = some t := by
    refine getLast?_filter_of_imp (fun t same => ?_) last (beq_iff_eq.2 named)
    rw [eq_of_beq same, beq_self_eq_true]
  rw [having, List.getLast?_map, own]
  rfl

/-- Every function of a file that can read a member of a declared record reads one of the record in
the model exactly if the record is declared once, or its last declaration has a field of the
name. -/
theorem accessor_kept_iff (read : ofFile locate scope items = .ok u)
    (accesses : Finding.Accesses ((scope, items) :: Item.listModules scope items) module owner f)
    (declared : ∃ t ∈ recordsOf ((scope, items) :: Item.listModules scope items), t.name = owner) :
    (u.model.find? owner).isSome = true ∧
      ∀ t, u.model.find? owner = some t → t.name = owner →
        ((t.member? (unraw f.name)).isSome = true ↔
          let records := (recordsOf ((scope, items) :: Item.listModules scope items)).filter
            (·.name == owner)
          records.length = 1 ∨
            ∃ last ∈ records.getLast?, (last.member? (unraw f.name)).isSome) := by
  rw [← Finding.declared_ofModules] at declared ⊢
  constructor
  · obtain ⟨t, inside, rfl⟩ := declared
    exact find?_of_found read (Finding.mem_declared.1 inside)
  intro t held named
  have marks := last_has_member (x := unraw f.name) read held named
  rw [Finding.having_types, if_pos accesses.found, having] at marks
  -- the first record is marked, and the last one is in the model
  cases records : (Finding.declared _).filter (·.name == owner) with
  | nil =>
    rw [records] at marks
    cases marks
  | cons first rest =>
    rw [records] at marks
    cases rest with
    | nil =>
      have has : true = (t.member? (unraw f.name)).isSome := Option.some.inj marks
      simp [← has]
    | cons second rest =>
      have has : ((second :: rest).map fun t => (t.member? (unraw f.name)).isSome).getLast? =
          some (t.member? (unraw f.name)).isSome := by
        simpa [markFirst, List.getLast?_cons_cons] using marks
      rw [List.getLast?_map] at has
      obtain ⟨last, ends, same⟩ := Option.map_eq_some_iff.1 has
      simp [← same, List.getLast?_cons_cons, ends]

def labelGetter : FunctionItem := { (default : FunctionItem) with
  name := "label"
  params := [{ (default : Grammar.Param) with form := .receiver ⟨some none, false, none⟩ }]
  output := some (.path (.ofNames ["String"])) }

/-- The record once for each of these types of its field, and a block with the function. -/
def rowFile (fields : List String) : List Item :=
  fields.map (fun ty => .record { (default : Grammar.RecordItem) with
    name := "Row"
    fields := .named [{ (default : Grammar.Field) with
      name := "id", ty := .path (.ofNames [ty]) }] false }) ++
  [.block { (default : Grammar.BlockItem) with
    selfType := .path (.ofNames ["Row"])
    members := [.function labelGetter] }]

def rowName : TypeName := ⟨["crate"], "Row"⟩

theorem labelGetter_accesses (fields : List String) :
    Finding.Accesses ((["crate"], rowFile fields) :: Item.listModules ["crate"] (rowFile fields))
      ["crate"] rowName labelGetter where
  written := ⟨_, _, List.mem_cons_self, List.mem_append_right _ List.mem_cons_self, rfl,
    List.mem_cons_self⟩
  unmarked := nofun
  plain := ⟨rfl, rfl, rfl⟩
  borrows := ⟨none, rfl⟩
  alone := rfl
  gives := ⟨_, rfl, rfl⟩

/-- The record declared once has the member. -/
theorem single_row_labelled :
    ∃ u t, ofFile (fun _ => ⟨1, 0⟩) ["crate"] (rowFile ["u32"]) = .ok u ∧
      u.model.find? rowName = some t ∧ (t.member? "label").isSome = true := by
  obtain ⟨u, read, t, held, named⟩ : ∃ u, ofFile (fun _ => ⟨1, 0⟩) ["crate"] (rowFile ["u32"]) =
      .ok u ∧ ∃ t, u.model.find? rowName = some t ∧ t.name = rowName := ⟨_, rfl, _, rfl, rfl⟩
  obtain ⟨-, kept⟩ :=
    accessor_kept_iff read (labelGetter_accesses ["u32"]) ⟨_, List.mem_cons_self, rfl⟩
  exact ⟨u, t, read, held, (kept t held named).2 (Or.inl rfl)⟩

/-- Declared twice, as for two targets of a build, it has not. -/
theorem repeated_row_unlabelled :
    ∃ u t, ofFile (fun _ => ⟨1, 0⟩) ["crate"] (rowFile ["u32", "u64"]) = .ok u ∧
      Finding.Accesses ((["crate"], rowFile ["u32", "u64"]) ::
        Item.listModules ["crate"] (rowFile ["u32", "u64"])) ["crate"] rowName labelGetter ∧
      u.model.find? rowName = some t ∧ t.name = rowName ∧
      t.members.map (·.name) = ["id"] :=
  ⟨_, _, rfl, labelGetter_accesses _, rfl, rfl, rfl⟩

end SourceUnit

end RecordViews
