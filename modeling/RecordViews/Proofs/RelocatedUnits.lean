import RecordViews.Proofs.Accessors
import RecordViews.Proofs.Contributions
import RecordViews.Proofs.LocalOptions

/-! The items of a module read in two modules. If paths in the helper attributes, the headers of
blocks and the parameters of property functions are single words, what comes to light in one module
is what comes to light in the other, moved, and so are the records and bearers made of it. -/

namespace RecordViews

open Grammar

variable {S T : Scope}

namespace Grammar

/-- A shared reference is to a record of the own module, if to any. -/
def Ty.isLocal : Ty → Bool
  | .reference _ false (.path p) => p.isLocal
  | _ => true

/-- Only a function that plays a part has parameters that name the record. -/
def FunctionItem.isLocal (f : FunctionItem) : Bool :=
  f.attributes.all (·.helper?.isNone) || f.paramTypes.all Ty.isLocal

def BlockMember.isLocal : BlockMember → Bool
  | .function f => f.isLocal
  | .other _ => true

def BlockItem.isLocal (b : BlockItem) : Bool :=
  (match b.selfType with
    | .path p => p.isLocal
    | _ => true) &&
  b.members.all BlockMember.isLocal

def RecordItem.isLocal (r : RecordItem) : Bool :=
  r.attributes.all fun a => a.helper?.isNone || a.isLocal

/-- The item names only records of the module that it is in. -/
def Item.isLocal : Item → Bool
  | .record r => r.isLocal
  | .block b => b.isLocal
  | .module .. | .other _ => true

end Grammar

def Contribution.relocate (c : Contribution) (T : Scope) : Contribution :=
  match c with
  | .view r => .view (r.relocate T)
  | .metaType r => .metaType (r.relocate T)
  | .override o => .override (o.relocate T)
  | .addition a => .addition (a.relocate T)

def Setter.relocate (s : Setter) (T : Scope) : Setter :=
  { s with owner := s.owner.relocate T }

namespace Finding

def relocate (f : Finding) (T : Scope) : Finding :=
  match f with
  | .type t => .type (t.relocate T)
  | .contribution bearer place c => .contribution (bearer.relocate T) place (c.relocate T)
  | .accessor owner m => .accessor (owner.relocate T) m
  | .setter s => .setter (s.relocate T)
  | .fault f => .fault f

theorem contribution?_relocate {a : Attribute} (h : (a.helper?.isNone || a.isLocal) = true) :
    contribution? T a = (contribution? S a).map (Except.map (·.relocate T)) := by
  unfold contribution?
  cases helper : a.helper? with
  | none => rfl
  | some helper' =>
    have home : a.isLocal = true := by simpa [helper] using h
    cases helper' with
    | viewOf =>
      simp only [Option.map_some, ViewRequest.ofAttribute_relocate (S := S) (T := T) home]
      cases ViewRequest.ofAttribute S a <;> rfl
    | viewProperty =>
      simp only [Option.map_some, Override.ofAttribute_relocate (S := S) (T := T) home]
      cases Override.ofAttribute S a <;> rfl
    | viewMeta =>
      simp only [Option.map_some, MetaRequest.ofAttribute_relocate (S := S) (T := T) home]
      cases MetaRequest.ofAttribute S a <;> rfl

theorem ofContribution_relocate (bearer : TypeName) (place : Nat)
    (c : Except AttributeFault Contribution) :
    ofContribution (bearer.relocate T) place (c.map (·.relocate T)) =
      (ofContribution bearer place c).relocate T := by
  cases c <;> rfl

theorem ofRecord_relocate {r : RecordItem} (h : r.isLocal = true) :
    ofRecord T r = (ofRecord S r).map (·.relocate T) := by
  have read : r.attributes.filterMap (contribution? T) =
      (r.attributes.filterMap (contribution? S)).map (Except.map (·.relocate T)) := by
    rw [List.map_filterMap]
    exact List.filterMap_congr fun a ha => contribution?_relocate (List.all_eq_true.1 h a ha)
  unfold ofRecord
  rw [read, List.map_map, List.map_cons, List.map_map]
  congr 1
  exact List.map_congr_left fun c _ => ofContribution_relocate (SourceType.nameOf S r) r.place c

theorem ofFunction_relocate (owner : TypeName) (f : FunctionItem) :
    ofFunction (owner.relocate T) f = (ofFunction owner f).map (·.relocate T) := by
  unfold ofFunction
  split
  · rename_i a _
    cases FunctionRole.ofAttribute a with
    | error f => rfl
    | ok role => cases role <;> rfl
  · rw [List.map_append]
    congr 1
    · cases f.accessor? <;> rfl
    · unfold FunctionItem.setter?
      split
      · cases FunctionItem.assigned? (unraw f.name) <;> rfl
      · rfl

theorem owner?_relocate {b : BlockItem} (h : b.isLocal = true) :
    owner? T b = (owner? S b).map (·.relocate T) := by
  have home := (Bool.and_eq_true_iff.1 h).1
  unfold owner?
  split
  · rename_i path header
    rw [header] at home
    exact TypeName.resolve?_relocate home S T
  · rfl

theorem ofBlock_relocate {b : BlockItem} (h : b.isLocal = true) :
    ofBlock T b = (ofBlock S b).map (·.relocate T) := by
  unfold ofBlock
  rw [owner?_relocate h (S := S)]
  cases owner? S b with
  | none => rfl
  | some owner =>
    rw [Option.map_some]
    dsimp only
    rw [List.map_flatMap]
    refine List.flatMap_congr fun m _ => ?_
    cases m with
    | function f => exact ofFunction_relocate owner f
    | other tokens => rfl

theorem ofModules_relocate {items : List Item} (h : ∀ i ∈ items, i.isLocal = true) (S T : Scope) :
    ofModules [(T, items)] = (ofModules [(S, items)]).map (·.relocate T) := by
  simp only [ofModules, List.flatMap_singleton, List.map_append, List.map_flatMap]
  congr 1
  · refine List.flatMap_congr fun i hi => ?_
    cases i with
    | record r => exact ofRecord_relocate (h _ hi)
    | _ => rfl
  · refine List.flatMap_congr fun i hi => ?_
    cases i with
    | block b => exact ofBlock_relocate (h _ hi)
    | _ => rfl

end Finding

theorem modifyFirst_relocate {α β : Type} {g : α → β} {p : α → Bool} {q : β → Bool} {f : α → α}
    {f' : β → β} {l : List α} (sees : ∀ a ∈ l, q (g a) = p a)
    (changes : ∀ a ∈ l, f' (g a) = g (f a)) :
    modifyFirst q f' (l.map g) = (modifyFirst p f l).map g := by
  induction l with
  | nil => rfl
  | cons a rest ih =>
    obtain ⟨seen, sees⟩ := List.forall_mem_cons.1 sees
    obtain ⟨change, changes⟩ := List.forall_mem_cons.1 changes
    rw [List.map_cons, modifyFirst, modifyFirst, seen, change, ih sees changes]
    split <;> rfl

abbrev moveTypes (T : Scope) (types : List SourceType) : List SourceType :=
  types.map (·.relocate T)

variable {types : List SourceType}

theorem attachAccessor_relocate (placed : moveTypes S types = types) {owner : TypeName}
    (ho : owner.relocate S = owner) (m : Member) :
    attachAccessor (moveTypes T types) (owner.relocate T) m =
      moveTypes T (attachAccessor types owner m) := by
  have placed := map_eq_self_iff.1 placed
  refine modifyFirst_relocate (fun t ht => ?_) fun t _ => ?_
  · have named : t.name.relocate S = t.name := congrArg SourceType.name (placed t ht)
    exact TypeName.relocate_beq named ho
  · change (if (t.member? m.name).isSome = true then t.relocate T else _) = _
    split <;> rfl

theorem attachSetter_relocate (placed : moveTypes S types = types) {s : Setter}
    (hs : s.relocate S = s) :
    attachSetter (moveTypes T types) (s.relocate T) = moveTypes T (attachSetter types s) := by
  have placed := map_eq_self_iff.1 placed
  refine modifyFirst_relocate (fun t ht => ?_) fun _ _ => rfl
  have named : t.name.relocate S = t.name := congrArg SourceType.name (placed t ht)
  have owned : s.owner.relocate S = s.owner := congrArg Setter.owner hs
  exact congrArg (· && t.members.any s.fits) (TypeName.relocate_beq named owned)

abbrev moveBearers (T : Scope) (bearers : List Bearer) : List Bearer :=
  bearers.map (·.relocate T)

theorem Contribution.addTo_relocate (c : Contribution) (b : Bearer) (T : Scope) :
    (c.relocate T).addTo (b.relocate T) = (c.addTo b).relocate T := by
  cases c with
  | override o =>
    simp [Contribution.addTo, Contribution.relocate, Bearer.addOverride, Bearer.relocate,
      Override.mergeInto_relocate]
  | _ => simp [Contribution.addTo, Contribution.relocate, Bearer.relocate]

theorem contribute_relocate {bearers : List Bearer} (placed : moveBearers S bearers = bearers)
    {n : TypeName} (hn : n.relocate S = n) {c : Contribution} (hc : c.relocate S = c) :
    contribute (moveBearers T bearers) (n.relocate T) (c.relocate T) =
      moveBearers T (contribute bearers n c) := by
  have placed := map_eq_self_iff.1 placed
  unfold contribute
  rw [TypeName.findIn?_relocate (fun T b => Bearer.relocate b T) (fun _ _ => rfl) placed hn]
  cases TypeName.findIn? Bearer.name n bearers with
  | some b =>
    exact TypeName.modifyIn_relocate (fun T b => Bearer.relocate b T) (fun _ _ => rfl) placed hn
      fun b _ => c.addTo_relocate b T
  | none =>
    have new := c.addTo_relocate { name := n } T
    have here : (c.addTo { name := n }).relocate S = c.addTo { name := n } := by
      rw [← Contribution.addTo_relocate, hc]
      exact congrArg c.addTo (congrArg (fun n => ({ name := n } : Bearer)) hn)
    have inserted : TypeName.insertIn Bearer.name ((c.addTo { name := n }).relocate T) _ = _ :=
      TypeName.insertIn_relocate (fun T b => Bearer.relocate b T) (fun _ _ => rfl) here placed
    rw [← new] at inserted
    exact inserted

namespace Finding

variable {findings : List Finding}

theorem filterMap_relocate {β : Type} {g : Finding → Option β} {m : β → β}
    (h : ∀ f, g (f.relocate T) = (g f).map m) :
    (findings.map (·.relocate T)).filterMap g = (findings.filterMap g).map m := by
  rw [List.filterMap_map, List.map_filterMap]
  exact List.filterMap_congr fun f _ => h f

section Steps

variable {β : Type} {move : Scope → β → β} {step : β → Finding → β} {b : β}
  (moves : ∀ T b f, move S b = b → f.relocate S = f →
    step (move T b) (f.relocate T) = move T (step b f))

include moves

/-- Steps through findings that move with the finding end where the moved findings lead. -/
theorem foldl_findings (placed : ∀ f ∈ findings, f.relocate S = f) (hb : move S b = b) :
    (findings.map (·.relocate T)).foldl step (move T b) = move T (findings.foldl step b) :=
  foldl_relocate (fun T f => f.relocate T) move (fun T f b hf hb => moves T b f hb hf) placed hb

theorem foldl_stays (placed : ∀ f ∈ findings, f.relocate S = f) (hb : move S b = b) :
    move S (findings.foldl step b) = findings.foldl step b := by
  rw [← foldl_findings moves placed hb, map_eq_self_iff.2 placed, hb]

end Steps

theorem declared_relocate (findings : List Finding) (T : Scope) :
    declared (findings.map (·.relocate T)) = moveTypes T (declared findings) :=
  filterMap_relocate (by intro f; cases f <;> rfl)

theorem addAccessor_relocate (T : Scope) (types : List SourceType) (f : Finding)
    (placed : moveTypes S types = types) (hf : f.relocate S = f) :
    addAccessor (moveTypes T types) (f.relocate T) = moveTypes T (addAccessor types f) := by
  cases f with
  | accessor owner m =>
    have owned : owner.relocate S = owner := by injection hf
    exact attachAccessor_relocate placed owned m
  | _ => rfl

theorem addSetter_relocate (T : Scope) (types : List SourceType) (f : Finding)
    (placed : moveTypes S types = types) (hf : f.relocate S = f) :
    addSetter (moveTypes T types) (f.relocate T) = moveTypes T (addSetter types f) := by
  cases f with
  | setter s =>
    have owned : s.relocate S = s := by injection hf
    exact attachSetter_relocate placed owned
  | _ => rfl

theorem types_relocate (placed : ∀ f ∈ findings, f.relocate S = f) (T : Scope) :
    Finding.types (findings.map (·.relocate T)) = moveTypes T (Finding.types findings) := by
  have start : moveTypes S (declared findings) = declared findings := by
    rw [← declared_relocate, map_eq_self_iff.2 placed]
  have accessed := foldl_stays addAccessor_relocate placed start
  rw [types_eq, types_eq, declared_relocate, foldl_findings addAccessor_relocate placed start,
    foldl_findings addSetter_relocate placed accessed]

theorem addBearer_relocate (T : Scope) (bearers : List Bearer) (f : Finding)
    (placed : moveBearers S bearers = bearers) (hf : f.relocate S = f) :
    addBearer (moveBearers T bearers) (f.relocate T) = moveBearers T (addBearer bearers f) := by
  cases f with
  | contribution n place c =>
    injection hf with hn _ hc
    exact contribute_relocate placed hn hc
  | _ => rfl

theorem bearers_relocate (placed : ∀ f ∈ findings, f.relocate S = f) (T : Scope) :
    Finding.bearers (findings.map (·.relocate T)) = moveBearers T (Finding.bearers findings) := by
  rw [bearers_eq, bearers_eq, ← foldl_findings addBearer_relocate placed rfl]
  rfl

theorem faults_relocate (findings : List Finding) (T : Scope) :
    Finding.faults (findings.map (·.relocate T)) = Finding.faults findings := by
  have same : Finding.faults (findings.map (·.relocate T)) = (Finding.faults findings).map id :=
    filterMap_relocate (by intro f; cases f <;> rfl)
  rwa [List.map_id] at same

theorem places_relocate (findings : List Finding) (T : Scope) :
    Finding.places (findings.map (·.relocate T)) =
      (Finding.places findings).map (Prod.map (·.relocate T) id) :=
  filterMap_relocate (by intro f; cases f <;> rfl)

end Finding

/-- The function takes only records of its own module. -/
def Signature.isLocal (s : Signature) : Bool :=
  s.params.all Ty.isLocal

def Contribution.isLocal : Contribution → Bool
  | .override o => o.extractor.all Signature.isLocal
  | .addition a => a.function.isLocal
  | .view _ | .metaType _ => true

/-- All functions that the bearer carries take only records of their own module. -/
def Bearer.isLocal (b : Bearer) : Bool :=
  b.overrides.all (·.extractor.all Signature.isLocal) && b.additions.all (·.function.isLocal)

theorem Override.mergeInto_isLocal {o : Override} {os : List Override}
    (ho : o.extractor.all Signature.isLocal = true)
    (hos : os.all (·.extractor.all Signature.isLocal) = true) :
    (o.mergeInto os).all (·.extractor.all Signature.isLocal) = true := by
  induction os with
  | nil => simpa [mergeInto] using ho
  | cons p rest ih =>
    rw [List.all_cons, Bool.and_eq_true] at hos
    rw [mergeInto]
    split
    · rw [List.all_cons, Bool.and_eq_true]
      refine ⟨?_, hos.2⟩
      change (o.extractor <|> p.extractor).all _ = true
      cases given : o.extractor with
      | none => exact hos.1
      | some s =>
        rw [given] at ho
        exact ho
    · rw [List.all_cons, Bool.and_eq_true]
      exact ⟨hos.1, ih hos.2⟩

theorem Contribution.addTo_isLocal {c : Contribution} {b : Bearer} (hc : c.isLocal = true)
    (hb : b.isLocal = true) : (c.addTo b).isLocal = true := by
  obtain ⟨overrides, additions⟩ := Bool.and_eq_true_iff.1 hb
  cases c with
  | override o =>
    exact Bool.and_eq_true_iff.2 ⟨Override.mergeInto_isLocal hc overrides, additions⟩
  | addition a =>
    refine Bool.and_eq_true_iff.2 ⟨overrides, ?_⟩
    have here : a.function.isLocal = true := hc
    simpa [addTo, here] using additions
  | view r => exact hb
  | metaType r => exact hb

namespace Finding

theorem bearers_isLocal {findings : List Finding}
    (h : ∀ n place c, .contribution n place c ∈ findings → c.isLocal = true) :
    ∀ b ∈ Finding.bearers findings, b.isLocal = true := by
  rw [bearers_eq]
  refine foldl_forall (P := fun b => b.isLocal = true) (fun n place c found => ?_) (by simp)
  have home := h n place c found
  exact ⟨Contribution.addTo_isLocal home rfl, fun b hb => Contribution.addTo_isLocal home hb⟩

variable {n : TypeName} {place : Nat} {c : Contribution}

theorem isLocal_of_record {r : RecordItem} (h : r.isLocal = true)
    (found : .contribution n place c ∈ ofRecord S r) : c.isLocal = true := by
  obtain ⟨-, a, ha, given⟩ := contribution_of_record found
  have helped : a.helper?.isNone = false := by
    obtain ⟨helper, is, -⟩ := Option.map_eq_some_iff.1 given
    rw [is]
    rfl
  have home : a.isLocal = true := by simpa [helped] using List.all_eq_true.1 h a ha
  rcases contribution?_ok given with ⟨q, -, rfl⟩ | ⟨o, made, rfl⟩ | ⟨q, -, rfl⟩
  · rfl
  · change o.extractor.all _ = true
    rw [Override.extractor_of_ofAttribute home made]
    rfl
  · rfl

theorem isLocal_of_function {owner : TypeName} {f : FunctionItem} (h : f.isLocal = true)
    (found : .contribution n place c ∈ ofFunction owner f) : c.isLocal = true := by
  obtain ⟨a, ha, helper, role, rfl⟩ := contribution_of_function found
  have params : f.paramTypes.all Ty.isLocal = true := by
    rcases Bool.or_eq_true_iff.1 h with none | params
    · have := List.all_eq_true.1 none a ha
      rw [helper] at this
      cases this
    · exact params
  cases role <;> exact params

theorem isLocal_of_found {items : List Item} (h : ∀ i ∈ items, i.isLocal = true)
    (found : .contribution n place c ∈ ofModules [(S, items)]) : c.isLocal = true := by
  simp only [ofModules, List.flatMap_singleton, List.mem_append, List.mem_flatMap] at found
  rcases found with ⟨i, hi, found⟩ | ⟨i, hi, found⟩
  · cases i with
    | record r => exact isLocal_of_record (h _ hi) found
    | _ => cases found
  · cases i with
    | block b =>
      obtain ⟨owner, f, hf, found⟩ := contribution_of_block found
      have members := (Bool.and_eq_true_iff.1 (h _ hi)).2
      exact isLocal_of_function (List.all_eq_true.1 members _ hf) found
    | _ => cases found

end Finding

theorem Model.insertAll_relocate {m : Model} {ts : List SourceType} (placed : m.relocate S = m)
    (hts : ∀ t ∈ ts, t.relocate S = t) (T : Scope) :
    (m.relocate T).insertAll (ts.map (·.relocate T)) = (m.insertAll ts).relocate T := by
  refine foldl_relocate (fun T (t : SourceType) => t.relocate T)
    (fun T (m : Model) => m.relocate T) ?_ hts placed
  intro T t m ht hm
  have hm := map_eq_self_iff.1 (congrArg Model.types hm)
  exact congrArg Model.mk
    (TypeName.insertIn_relocate (fun T t => SourceType.relocate t T) (fun _ _ => rfl) ht hm)

namespace SourceUnit

def relocate (u : SourceUnit) (T : Scope) : SourceUnit where
  model := u.model.relocate T
  bearers := u.bearers.map (·.relocate T)
  places := u.places.map (Prod.map (·.relocate T) id)

variable {locate : Nat → Location} {items : List Item}

/-- Items that name only records of their own module say in another module the same about the
records there. -/
theorem ofItems_relocate (h : ∀ i ∈ items, i.isLocal = true) (S T : Scope) :
    ofItems locate T items = (ofItems locate S items).map (·.relocate T) := by
  have placed : ∀ f ∈ Finding.ofModules [(S, items)], f.relocate S = f :=
    map_eq_self_iff.1 (Finding.ofModules_relocate h S S).symm
  have typed : ∀ t ∈ Finding.types (Finding.ofModules [(S, items)]), t.relocate S = t := by
    refine map_eq_self_iff.1 ((Finding.types_relocate placed S).symm.trans ?_)
    rw [map_eq_self_iff.2 placed]
  unfold ofItems ofFindings
  rw [Finding.ofModules_relocate h S T, Finding.faults_relocate, Finding.types_relocate placed,
    Finding.bearers_relocate placed, Finding.places_relocate]
  split
  · have model : Model.insertAll {} _ = _ := Model.insertAll_relocate (m := {}) rfl typed T
    rw [model]
    simp [Except.map, relocate]
  · rfl

/-- What items that name only records of their own module make is in the module. -/
theorem placed_of_ofItems (h : ∀ i ∈ items, i.isLocal = true) {u : SourceUnit}
    (read : ofItems locate S items = .ok u) : u.relocate S = u := by
  have same : ofItems locate S items = _ := ofItems_relocate h S S
  rw [read] at same
  exact (Except.ok.inj same).symm

/-- The functions that bearers carry take only records of their own module, too. -/
theorem isLocal_of_ofItems (h : ∀ i ∈ items, i.isLocal = true) {u : SourceUnit}
    (read : ofItems locate S items = .ok u) : ∀ b ∈ u.bearers, b.isLocal = true := by
  rw [(ofFindings_ok read).2]
  exact Finding.bearers_isLocal fun n place c => Finding.isLocal_of_found h

end SourceUnit

end RecordViews
