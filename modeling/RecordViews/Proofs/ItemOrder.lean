import RecordViews.Proofs.CompletedRecords
import RecordViews.Proofs.ReorderedBearers

/-! The order of the items of a module. A setter may stand in front of the field or the accessor
that it belongs to and in another block, and a record behind its functions. If no two records share
a name, no two functions of a record do and no two of them give the value of the same member, the
unit of the module tells the order of its items only by the order of the members that accessors
read and of the changes and further properties of a bearer. -/

namespace RecordViews

open Grammar (Item RecordItem BlockMember FunctionItem)

inductive Grammar.Item.Rearranged : Item → Item → Prop where
  | same (item : Item) : Rearranged item item
  | block (b : BlockItem) {members : List BlockMember} : b.members.Perm members →
      Rearranged (.block b) (.block { b with members })

/-- The items in another order, also inside the blocks. -/
def Grammar.Item.Shuffled (items items' : List Item) : Prop :=
  ∃ between, items.Perm between ∧ List.Forall₂ Rearranged between items'

namespace Finding

variable {scope : Scope} {items items' : List Item}

def recordItem? : Item → Option RecordItem
  | .record r => some r
  | _ => none

def recordItems (items : List Item) : List RecordItem :=
  items.filterMap recordItem?

/-- The functions of a block, each with the record that it belongs to. -/
def functionsOf (scope : Scope) : Item → List (TypeName × FunctionItem)
  | .block b => (owner? scope b).toList.flatMap fun owner => b.members.filterMap fun
    | .function f => some (owner, f)
    | .other _ => none
  | _ => []

def functionsIn (scope : Scope) (items : List Item) : List (TypeName × FunctionItem) :=
  items.flatMap (functionsOf scope)

theorem recordItems_shuffled (h : Item.Shuffled items items') :
    (recordItems items).Perm (recordItems items') := by
  obtain ⟨between, perm, rearranged⟩ := h
  refine (perm.filterMap _).trans ?_
  clear perm
  induction rearranged with
  | nil => exact .refl _
  | @cons item item' _ _ first _ ih =>
    have same : recordItem? item' = recordItem? item := by
      cases first <;> rfl
    rw [recordItems, List.filterMap_cons, List.filterMap_cons, same]
    cases recordItem? item with
    | none => exact ih
    | some r => exact ih.cons r

theorem functionsIn_shuffled (scope : Scope) (h : Item.Shuffled items items') :
    (functionsIn scope items).Perm (functionsIn scope items') := by
  obtain ⟨between, perm, rearranged⟩ := h
  refine (perm.flatMap_right _).trans ?_
  clear perm
  induction rearranged with
  | nil => exact .refl _
  | cons first _ ih =>
    refine List.Perm.append ?_ ih
    cases first with
    | same item => exact .refl _
    | block b members => exact .flatMap_left _ fun owner _ => members.filterMap _

/-- The findings in a single module. -/
theorem ofModules_single (scope : Scope) (items : List Item) :
    ofModules [(scope, items)] = (recordItems items).flatMap (ofRecord scope) ++
      (functionsIn scope items).flatMap fun p => ofFunction p.1 p.2 := by
  have records (item : Item) : ofRecordItem scope item =
      (recordItem? item).toList.flatMap (ofRecord scope) := by
    cases item <;> simp [ofRecordItem, recordItem?]
  have functions (item : Item) : ofBlockItem scope item =
      (functionsOf scope item).flatMap fun p => ofFunction p.1 p.2 := by
    cases item with
    | block b =>
      rw [ofBlockItem, ofBlock, functionsOf]
      cases owner? scope b with
      | none => rfl
      | some owner =>
        simp only [Option.toList_some, List.flatMap_singleton, List.filterMap_eq_flatMap_toList,
          List.flatMap_assoc]
        refine List.flatMap_congr fun m _ => ?_
        cases m <;> simp [ofMember]
    | _ => rfl
  simp only [ofModules, List.flatMap_singleton, functionsIn, recordItems,
    List.filterMap_eq_flatMap_toList, List.flatMap_assoc, ← functions, ← records]

/-- What is found in items in another order comes in another order. -/
theorem ofModules_shuffled (scope : Scope) (h : Item.Shuffled items items') :
    (ofModules [(scope, items)]).Perm (ofModules [(scope, items')]) := by
  rw [ofModules_single, ofModules_single]
  exact ((recordItems_shuffled h).flatMap_right _).append
    ((functionsIn_shuffled scope h).flatMap_right _)

end Finding

namespace Grammar.FunctionItem

variable {f : FunctionItem}

theorem accessor?_spec {m : Member} (h : f.accessor? = some m) :
    f.borrow? = some false ∧ m.name = unraw f.name ∧ m.kind = .accessor := by
  unfold accessor? at h
  split at h
  · rename_i borrows _ _
    split at h
    · obtain rfl := Option.some.inj h
      exact ⟨borrows, rfl, rfl⟩
    · cases h
  · cases h

theorem assigned?_eq_some {name member : String} (h : assigned? name = some member) :
    name = "set_" ++ member := by
  unfold assigned? at h
  split at h
  · rename_i rest spelled
    obtain rfl := Option.some.inj h
    rw [← String.toList_inj, spelled]
    simp
  · cases h

theorem setter?_spec {owner : TypeName} {s : Setter} (h : f.setter? owner = some s) :
    f.borrow? = some true ∧ s.owner = owner ∧ unraw f.name = "set_" ++ s.member := by
  unfold setter? at h
  split at h
  · rename_i borrows _ _
    obtain ⟨member, assigned, rfl⟩ := Option.map_eq_some_iff.1 h
    exact ⟨borrows, rfl, assigned?_eq_some assigned⟩
  · cases h

end Grammar.FunctionItem

namespace Finding

variable {owner n : TypeName} {f : FunctionItem}

/-- No function both reads and assigns a member. -/
theorem ofFunction_length_le (owner : TypeName) (f : FunctionItem) :
    (ofFunction owner f).length ≤ 1 := by
  unfold ofFunction
  split
  · exact Nat.le_refl 1
  · cases reads : f.accessor? with
    | none => cases f.setter? owner <;> simp
    | some m =>
      cases assigns : f.setter? owner with
      | none => simp
      | some s =>
        have := (FunctionItem.accessor?_spec reads).1.symm.trans
          (FunctionItem.setter?_spec assigns).1
        cases this

theorem mem_ofFunction {finding : Finding} (found : finding ∈ ofFunction owner f) :
    (∃ c, finding = ofContribution owner f.place c) ∨
      (∃ m, f.accessor? = some m ∧ finding = .accessor owner m) ∨
      ∃ s, f.setter? owner = some s ∧ finding = .setter s := by
  unfold ofFunction at found
  split at found
  · exact Or.inl ⟨_, List.mem_singleton.1 found⟩
  · simp only [List.mem_append, Option.mem_toList, Option.map_eq_some_iff] at found
    rcases found with ⟨m, reads, rfl⟩ | ⟨s, assigns, rfl⟩
    · exact Or.inr (Or.inl ⟨m, reads, rfl⟩)
    · exact Or.inr (Or.inr ⟨s, assigns, rfl⟩)

theorem accessor_of_function {m : Member} (found : .accessor n m ∈ ofFunction owner f) :
    owner = n ∧ m.name = unraw f.name ∧ m.kind = .accessor := by
  rcases mem_ofFunction found with ⟨c, made⟩ | ⟨m', reads, made⟩ | ⟨s, -, made⟩
  · cases c <;> cases made
  · obtain ⟨rfl, rfl⟩ := Finding.accessor.inj made
    exact ⟨rfl, (FunctionItem.accessor?_spec reads).2⟩
  · cases made

theorem setter_of_function {s : Setter} (found : .setter s ∈ ofFunction owner f) :
    s.owner = owner ∧ unraw f.name = "set_" ++ s.member := by
  rcases mem_ofFunction found with ⟨c, made⟩ | ⟨m, -, made⟩ | ⟨s', assigns, made⟩
  · cases c <;> cases made
  · cases made
  · obtain rfl := Finding.setter.inj made
    exact (FunctionItem.setter?_spec assigns).2

/-- Functions ask for nothing. -/
theorem adjusts_of_function {place : Nat} {c : Contribution}
    (found : .contribution n place c ∈ ofFunction owner f) : c.adjusts = true := by
  obtain ⟨_, _, _, role, rfl⟩ := contribution_of_function found
  cases role <;> rfl

theorem override_of_function {o : Override} (found : o ∈ overrides n (ofFunction owner f)) :
    owner.text = n.text ∧ o ∈ Override.ofFunction? owner f := by
  have member := overrides_ofMember (n := n) owner (.function f)
  rw [ofMember] at member
  rw [member] at found
  split at found
  · exact ⟨‹_›, Option.mem_toList.1 found⟩
  · cases found

/-- If the functions make things of different keys in pairs, all their things have different keys;
no function makes two. -/
theorem nodup_of_functions {α β : Type} {fs : List (TypeName × FunctionItem)}
    {R : TypeName × FunctionItem → TypeName × FunctionItem → Prop} (apart : fs.Pairwise R)
    {make : List Finding → List α} (short : ∀ findings, (make findings).length ≤ findings.length)
    {key : α → β} (differ : ∀ p q, R p q → ∀ a ∈ make (ofFunction p.1 p.2),
      ∀ b ∈ make (ofFunction q.1 q.2), key a ≠ key b) :
    ((fs.flatMap fun p => make (ofFunction p.1 p.2)).map key).Nodup := by
  refine List.pairwise_map.2 (List.pairwise_flatMap.2
    ⟨fun p _ => ?_, apart.imp fun {p q} => differ p q⟩)
  have one := Nat.le_trans (short (ofFunction p.1 p.2)) (ofFunction_length_le p.1 p.2)
  match make (ofFunction p.1 p.2), one with
  | [], _ => exact .nil
  | [a], _ => exact List.pairwise_singleton _ _

end Finding

/-- No two records of the items share a name, no two functions of a record do, and no two of them
give the value of the same member. -/
structure Tidy (scope : Scope) (items : List Item) : Prop where
  records : ((Finding.recordItems items).map fun r => unraw r.name).Nodup
  functions : (Finding.functionsIn scope items).Pairwise fun p q =>
    p.1 = q.1 → unraw p.2.name ≠ unraw q.2.name
  /-- Bearers are told apart by the texts of their names. -/
  extracts : (Finding.functionsIn scope items).Pairwise fun p q => p.1.text = q.1.text →
    ∀ o ∈ Override.ofFunction? p.1 p.2, ∀ o' ∈ Override.ofFunction? q.1 q.2, o.name ≠ o'.name

/-- Names of one module are told apart by their texts. -/
theorem TypeName.text_inj_of_module {m n : TypeName} (module : m.module = n.module)
    (text : m.text = n.text) : m = n := by
  have same : m.joined "::".toList = n.joined "::".toList := by
    rw [← toList_text, ← toList_text, text]
  rw [joined, joined, module] at same
  obtain ⟨scope, simple⟩ := m
  obtain ⟨scope', simple'⟩ := n
  obtain rfl : scope = scope' := module
  exact congrArg (TypeName.mk scope) (String.toList_inj.1 (List.append_cancel_left same))

namespace Finding

variable {scope : Scope} {items items' : List Item}

theorem declared_single (scope : Scope) (items : List Item) :
    declared (ofModules [(scope, items)]) = (recordItems items).map (SourceType.ofItem scope) := by
  rw [declared_ofModules, recordsOf, List.flatMap_singleton, recordItems, List.map_filterMap]
  refine List.filterMap_congr fun item _ => ?_
  cases item <;> rfl

/-- What no record makes is made by the functions alone. -/
theorem filterMap_single {α : Type} {make : Finding → Option α}
    (none : ∀ t, make (.type t) = none)
    (skips : ∀ n place c, make (ofContribution n place c) = Option.none) (scope : Scope)
    (items : List Item) : (ofModules [(scope, items)]).filterMap make =
      (functionsIn scope items).flatMap fun p => (ofFunction p.1 p.2).filterMap make := by
  have records : ((recordItems items).flatMap (ofRecord scope)).filterMap make = [] := by
    refine List.filterMap_eq_nil_iff.2 fun finding inside => ?_
    obtain ⟨r, -, found⟩ := List.mem_flatMap.1 inside
    rcases List.mem_cons.1 found with rfl | found
    · exact none _
    · obtain ⟨c, -, rfl⟩ := List.mem_map.1 found
      exact skips _ _ c
  rw [ofModules_single, List.filterMap_append, records, List.nil_append, List.filterMap_flatMap]

theorem accessorsOf_single (n : TypeName) (scope : Scope) (items : List Item) :
    accessorsOf n (ofModules [(scope, items)]) =
      (functionsIn scope items).flatMap fun p => accessorsOf n (ofFunction p.1 p.2) :=
  filterMap_single (fun _ => rfl) (fun _ _ c => by cases c <;> rfl) scope items

theorem settersOf_single (n : TypeName) (scope : Scope) (items : List Item) :
    settersOf n (ofModules [(scope, items)]) =
      (functionsIn scope items).flatMap fun p => settersOf n (ofFunction p.1 p.2) :=
  filterMap_single (fun _ => rfl) (fun _ _ c => by cases c <;> rfl) scope items

end Finding

namespace Tidy

open Finding

variable {scope : Scope} {items items' : List Item}

theorem texts (tidy : Tidy scope items) :
    ((recordItems items).map fun r => (SourceType.nameOf scope r).text).Nodup := by
  refine List.pairwise_map.2 ((List.pairwise_map.1 tidy.records).imp fun {r r'} ne text => ne ?_)
  have same : SourceType.nameOf scope r = SourceType.nameOf scope r' :=
    TypeName.text_inj_of_module rfl text
  exact congrArg TypeName.simple same

theorem declared_texts (tidy : Tidy scope items) :
    (((declared (ofModules [(scope, items)])).map (·.name)).map TypeName.text).Nodup := by
  rw [declared_single, List.map_map, List.map_map]
  exact tidy.texts

theorem declared_names (tidy : Tidy scope items) :
    ((declared (ofModules [(scope, items)])).map (·.name)).Nodup :=
  tidy.declared_texts.of_map _

theorem accessors (tidy : Tidy scope items) (n : TypeName) :
    ((accessorsOf n (ofModules [(scope, items)])).map (·.name)).Nodup := by
  rw [accessorsOf_single]
  refine nodup_of_functions tidy.functions (fun _ => List.length_filterMap_le ..) ?_
  intro p q apart m hm m' hm' same
  obtain ⟨own, name, -⟩ := accessor_of_function (mem_accessorsOf.1 hm)
  obtain ⟨own', name', -⟩ := accessor_of_function (mem_accessorsOf.1 hm')
  exact apart (own.trans own'.symm) (name.symm.trans (same.trans name'))

theorem setters (tidy : Tidy scope items) (n : TypeName) :
    ((settersOf n (ofModules [(scope, items)])).map (·.member)).Nodup := by
  rw [settersOf_single]
  refine nodup_of_functions tidy.functions (fun _ => List.length_filterMap_le ..) ?_
  intro p q apart s hs s' hs' same
  obtain ⟨found, own⟩ := mem_settersOf.1 hs
  obtain ⟨found', own'⟩ := mem_settersOf.1 hs'
  obtain ⟨owner, name⟩ := setter_of_function found
  obtain ⟨owner', name'⟩ := setter_of_function found'
  refine apart ?_ ?_
  · rw [← owner, ← owner', own, own']
  · rw [name, name', same]

theorem overrides (tidy : Tidy scope items) (n : TypeName) :
    (((functionsIn scope items).flatMap fun p => Finding.overrides n (ofFunction p.1 p.2)).map
      (·.name)).Nodup := by
  refine nodup_of_functions tidy.extracts (fun findings => ?_) ?_
  · exact Nat.le_trans (List.length_filterMap_le ..) (List.length_filterMap_le ..)
  intro p q apart o ho o' ho'
  obtain ⟨own, given⟩ := override_of_function ho
  obtain ⟨own', given'⟩ := override_of_function ho'
  exact apart (own.trans own'.symm) o given o' given'

end Tidy

theorem SourceType.ofItem_fields (scope : Scope) (r : RecordItem) :
    ∀ m ∈ (ofItem scope r).members, m.kind = .field := by
  intro m hm
  unfold ofItem at hm
  dsimp only at hm
  split at hm
  · obtain ⟨f, -, rfl⟩ := List.mem_map.1 hm
    rfl
  · cases hm
  · cases hm

theorem Model.insertAll_inOrder {m : Model} (h : TypeName.InOrder SourceType.name m.types)
    (ts : List SourceType) : TypeName.InOrder SourceType.name (m.insertAll ts).types := by
  induction ts generalizing m with
  | nil => exact h
  | cons t rest ih => exact ih (h.insertIn t)

theorem Model.insertAll_perm {m : Model} {ts : List SourceType}
    (distinct : ((ts ++ m.types).map fun t => t.name.text).Nodup) :
    (m.insertAll ts).types.Perm (ts ++ m.types) := by
  induction ts generalizing m with
  | nil => exact .refl _
  | cons t rest ih =>
    obtain ⟨new, distinct⟩ := List.nodup_cons.1 distinct
    have put : (m.insert t).types.Perm (t :: m.types) := by
      refine TypeName.insertIn_perm _ t _ fun t' inside same => new ?_
      exact List.mem_map.2 ⟨t', List.mem_append_right rest inside, same⟩
    have moved : (rest ++ (m.insert t).types).Perm (t :: (rest ++ m.types)) :=
      (put.append_left rest).trans List.perm_middle
    refine (ih ?_).trans moved
    rw [(moved.map _).nodup_iff]
    exact List.nodup_cons.2 ⟨new, distinct⟩

namespace Tidy

open Finding

variable {scope : Scope} {items items' : List Item}

theorem record_reordered (tidy : Tidy scope items) (h : Item.Shuffled items items')
    {t : SourceType} (inside : t ∈ declared (ofModules [(scope, items)])) :
    (t.completed (accessorsOf t.name (ofModules [(scope, items)]))
      (settersOf t.name (ofModules [(scope, items)]))).Reordered
    (t.completed (accessorsOf t.name (ofModules [(scope, items')]))
      (settersOf t.name (ofModules [(scope, items')]))) := by
  have perm := ofModules_shuffled scope h
  refine SourceType.completed_reordered ?_ (fun m hm => ?_) (tidy.accessors t.name)
    (tidy.setters t.name) (perm.filterMap _) (perm.filterMap _)
  · rw [declared_single] at inside
    obtain ⟨r, -, rfl⟩ := List.mem_map.1 inside
    exact SourceType.ofItem_fields scope r
  · rw [accessorsOf_single] at hm
    obtain ⟨p, -, found⟩ := List.mem_flatMap.1 hm
    exact (accessor_of_function (mem_accessorsOf.1 found)).2.2

theorem shuffled (tidy : Tidy scope items) (h : Item.Shuffled items items') :
    Tidy scope items' where
  records := ((recordItems_shuffled h).map _).nodup_iff.1 tidy.records
  functions := tidy.functions.perm (functionsIn_shuffled scope h) fun apart own name =>
    apart own.symm name.symm
  extracts := tidy.extracts.perm (functionsIn_shuffled scope h) fun apart own o ho o' ho' name =>
    apart own.symm o' ho' o ho name.symm

theorem mem_model (tidy : Tidy scope items) {t : SourceType} :
    t ∈ (Model.insertAll {} (types (ofModules [(scope, items)]))).types ↔
      ∃ d ∈ declared (ofModules [(scope, items)]),
        d.completed (accessorsOf d.name (ofModules [(scope, items)]))
          (settersOf d.name (ofModules [(scope, items)])) = t := by
  have texts : ((types (ofModules [(scope, items)])).map fun t => t.name.text).Nodup := by
    have named := tidy.declared_texts
    rw [← types_names, List.map_map] at named
    exact named
  have kept : (Model.insertAll {} (types (ofModules [(scope, items)]))).types.Perm
      (types (ofModules [(scope, items)]) ++ []) :=
    Model.insertAll_perm (by rw [List.append_nil]; exact texts)
  rw [kept.mem_iff, List.append_nil, types_eq_map tidy.declared_names, List.mem_map]

theorem types_reordered (tidy : Tidy scope items) (h : Item.Shuffled items items') :
    List.Forall₂ SourceType.Reordered
      (Model.insertAll {} (types (ofModules [(scope, items)]))).types
      (Model.insertAll {} (types (ofModules [(scope, items')]))).types := by
  have same {t : SourceType} : t ∈ declared (ofModules [(scope, items)]) ↔
      t ∈ declared (ofModules [(scope, items')]) :=
    ((ofModules_shuffled scope h).filterMap _).mem_iff
  refine (Model.insertAll_inOrder .nil _).forall₂ (Model.insertAll_inOrder .nil _)
    (fun _ _ reordered => congrArg TypeName.text reordered.name) (fun t ht => ?_) fun t' ht' => ?_
  · obtain ⟨d, inside, rfl⟩ := tidy.mem_model.1 ht
    exact ⟨_, (tidy.shuffled h).mem_model.2 ⟨d, same.1 inside, rfl⟩, tidy.record_reordered h inside⟩
  · obtain ⟨d, inside, rfl⟩ := (tidy.shuffled h).mem_model.1 ht'
    exact ⟨_, tidy.mem_model.2 ⟨d, same.2 inside, rfl⟩, tidy.record_reordered h (same.2 inside)⟩

/-- The record of a name makes the same contributions, and functions others in another order. -/
theorem contributions_reordered (tidy : Tidy scope items) (h : Item.Shuffled items items')
    (n : TypeName) : Contribution.Reordered (contributions n (ofModules [(scope, items)]))
      (contributions n (ofModules [(scope, items')])) := by
  have parts (items : List Item) : contributions n (ofModules [(scope, items)]) =
      ((recordItems items).filter fun r => (SourceType.nameOf scope r).text = n.text).flatMap
        (fun r => contributions n (ofRecord scope r)) ++
      (functionsIn scope items).flatMap fun p => contributions n (ofFunction p.1 p.2) := by
    rw [flatMap_filter, ofModules_single, contributions, List.filterMap_append,
      List.filterMap_flatMap, List.filterMap_flatMap]
    · rfl
    · intro r other
      refine List.eq_nil_iff_forall_not_mem.2 fun c hc => of_decide_eq_false other ?_
      obtain ⟨m, place, found, text⟩ := of_mem_contributions hc
      rw [← (contribution_of_record found).1, text]
  refine ⟨_, _, _, parts items, ?_, (functionsIn_shuffled scope h).flatMap_right _, ?_, ?_⟩
  · rw [parts items', filter_key_perm (recordItems_shuffled h) tidy.texts]
  · rw [List.filterMap_flatMap]
    exact tidy.overrides n
  · intro c hc
    obtain ⟨p, -, given⟩ := List.mem_flatMap.1 hc
    obtain ⟨m, place, found, -⟩ := of_mem_contributions given
    exact adjusts_of_function found

end Tidy

namespace SourceUnit

/-- What two readings of the same source are that agree except for the order of accessors, of
changes and further properties, and of faults. -/
inductive SameReading : Except (List AttributeFault) SourceUnit →
    Except (List AttributeFault) SourceUnit → Prop where
  | ok {u u' : SourceUnit} : List.Forall₂ SourceType.Reordered u.model.types u'.model.types →
      List.Forall₂ Bearer.Reordered u.bearers u'.bearers → SameReading (.ok u) (.ok u')
  | error {faults faults' : List AttributeFault} : faults.Perm faults' →
      SameReading (.error faults) (.error faults')

/-- The order of the items of a module, and of the members of its blocks, does not matter. -/
theorem ofItems_shuffled {scope : Scope} {items items' : List Item} (locate : Nat → Location)
    (tidy : Tidy scope items) (h : Item.Shuffled items items') :
    SameReading (ofItems locate scope items) (ofItems locate scope items') := by
  have perm : (Finding.faults (Finding.ofModules [(scope, items)])).Perm
      (Finding.faults (Finding.ofModules [(scope, items')])) :=
    (Finding.ofModules_shuffled scope h).filterMap _
  unfold ofItems ofFindings
  cases found : Finding.faults (Finding.ofModules [(scope, items)]) with
  | nil =>
    rw [found] at perm
    rw [perm.nil_eq.symm]
    exact .ok (tidy.types_reordered h) (Finding.bearers_reordered (tidy.contributions_reordered h))
  | cons fault rest =>
    cases found' : Finding.faults (Finding.ofModules [(scope, items')]) with
    | nil =>
      rw [found, found'] at perm
      cases perm.eq_nil
    | cons fault' rest' =>
      rw [found, found'] at perm
      exact .error perm

def labelSetter : FunctionItem := { (default : FunctionItem) with
  name := "set_label"
  params := [
    { (default : Grammar.Param) with form := .receiver ⟨some none, true, none⟩ },
    { (default : Grammar.Param) with
      form := .typed [.ident "value"] (.path (.ofNames ["String"])) }] }

def yearsFunction : FunctionItem :=
  { ageFunction with name := "years" }

def personRecord : Item :=
  .record { (default : RecordItem) with name := "Person", attributes := [wholeAttribute] }

def personBlock (functions : List FunctionItem) : Item :=
  .block { (default : Grammar.BlockItem) with
    selfType := .path (.ofNames ["crate", "Person"])
    members := functions.map .function }

def tidyItems : List Item :=
  [personRecord, personBlock [labelGetter, yearsFunction], personBlock [labelSetter]]

def shuffledItems : List Item :=
  [personBlock [labelSetter], personBlock [yearsFunction, labelGetter], personRecord]

theorem tidyItems_shuffled : Item.Shuffled tidyItems shuffledItems :=
  ⟨[personBlock [labelSetter], personBlock [labelGetter, yearsFunction], personRecord],
    (List.reverse_perm tidyItems).symm,
    .cons (.same _) (.cons (.block _ (.swap ..)) (.cons (.same _) .nil))⟩

/-- A setter is found though it stands in front of its accessor. -/
theorem setter_in_front :
    ∃ u u', ofItems (fun _ => ⟨1, 0⟩) ["crate"] tidyItems = .ok u ∧
      ofItems (fun _ => ⟨1, 0⟩) ["crate"] shuffledItems = .ok u' ∧
      List.Forall₂ SourceType.Reordered u.model.types u'.model.types ∧
      List.Forall₂ Bearer.Reordered u.bearers u'.bearers ∧
      ∃ t ∈ u'.model.types, t.members.map (·.setterName) = [some "set_label"] := by
  have tidy : Tidy ["crate"] tidyItems := ⟨by decide, by decide, by decide⟩
  obtain ⟨u, read⟩ : ∃ u, ofItems (fun _ => ⟨1, 0⟩) ["crate"] tidyItems = .ok u := ⟨_, rfl⟩
  obtain ⟨u', read', set⟩ : ∃ u', ofItems (fun _ => ⟨1, 0⟩) ["crate"] shuffledItems = .ok u' ∧
      ∃ t ∈ u'.model.types, t.members.map (·.setterName) = [some "set_label"] :=
    ⟨_, rfl, _, List.mem_cons_self, rfl⟩
  have same := ofItems_shuffled (fun _ => ⟨1, 0⟩) tidy tidyItems_shuffled
  rw [read, read'] at same
  cases same with
  | ok types bearers => exact ⟨u, u', read, read', types, bearers, set⟩

end SourceUnit

end RecordViews
