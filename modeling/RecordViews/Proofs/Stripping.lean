import Mathlib.Data.List.Forall2
import RecordViews.Proofs.HelperAttributes
import RecordViews.Proofs.OwnModule

/-! Items whose helper attributes are taken out. They keep everything else, and nobody who reads
them finds a request, a change of a member or a fault: all of these come of helper attributes where
they are taken out. So a module that is expanded has nothing left to expand. -/

namespace RecordViews

open Grammar (Item RecordItem BlockItem BlockMember FunctionItem Attribute ModuleHead)

namespace Grammar

namespace Attribute

variable {a : Attribute}

/-- The attribute is no helper: the last word of its path is another one. -/
def isOther (a : Attribute) : Bool :=
  a.path.lastName ∉ Helper.all.map Helper.word

theorem helper?_eq_none_iff : a.helper? = none ↔ a.isOther = true := by
  simp only [helper?, isOther, List.find?_eq_none, beq_iff_eq, List.mem_map, not_exists, not_and,
    decide_eq_true_eq]

theorem dropHelpers_eq (as : List Attribute) : dropHelpers as = as.filter isOther := by
  refine List.filter_congr fun a _ => ?_
  rw [Bool.eq_iff_iff, Option.isNone_iff_eq_none, helper?_eq_none_iff]

end Attribute

namespace BlockMember

/-- The attributes of a function; there are none of anything else. -/
def attributes : BlockMember → List Attribute
  | .function f => f.attributes
  | .other _ => []

/-- The member without the attributes of a function. -/
def bare : BlockMember → BlockMember
  | .function f => .function { f with attributes := [] }
  | .other tokens => .other tokens

theorem bare_inj {m n : BlockMember} (same : m.attributes = n.attributes)
    (others : m.bare = n.bare) : m = n := by
  cases m with
  | function f =>
    cases n with
    | function g =>
      injection others with others
      exact congrArg BlockMember.function
        (calc f
          _ = { { f with attributes := [] } with attributes := f.attributes } := rfl
          _ = { { g with attributes := [] } with attributes := g.attributes } := by
            rw [others, show f.attributes = g.attributes from same])
    | other tokens => cases others
  | other tokens =>
    cases n with
    | function g => cases others
    | other tokens' => exact others

theorem withoutHelpers_attributes (m : BlockMember) :
    m.withoutHelpers.attributes = m.attributes.filter Attribute.isOther := by
  cases m with
  | function f => exact Attribute.dropHelpers_eq f.attributes
  | other tokens => rfl

theorem withoutHelpers_bare (m : BlockMember) : m.withoutHelpers.bare = m.bare := by
  cases m <;> rfl

end BlockMember

namespace Item

/-- The attributes of a record, or those of each member of a block. -/
def attributeLists : Item → List (List Attribute)
  | .record r => [r.attributes]
  | .block b => b.members.map BlockMember.attributes
  | .module .. | .other _ => []

def bare : Item → Item
  | .record r => .record { r with attributes := [] }
  | .block b => .block { b with members := b.members.map BlockMember.bare }
  | .module head items => .module head items
  | .other tokens => .other tokens

/-- The second item is the first one without its helper attributes. -/
structure Sheds (i j : Item) : Prop where
  attributes : j.attributeLists = i.attributeLists.map (List.filter Attribute.isOther)
  others : j.bare = i.bare

variable {i j : Item}

/-- Items are told apart by these attributes and the rest of them. -/
theorem bare_inj (same : i.attributeLists = j.attributeLists) (others : i.bare = j.bare) :
    i = j := by
  cases i with
  | record r =>
    cases j with
    | record r' =>
      injection others with others
      exact congrArg Item.record
        (calc r
          _ = { { r with attributes := [] } with attributes := r.attributes } := rfl
          _ = { { r' with attributes := [] } with attributes := r'.attributes } := by
            rw [others, show r.attributes = r'.attributes from List.singleton_inj.1 same])
    | _ => cases others
  | block b =>
    cases j with
    | block b' =>
      injection others with others
      have members : b.members = b'.members := by
        have rest : b.members.map BlockMember.bare = b'.members.map BlockMember.bare :=
          congrArg BlockItem.members others
        have both : b.members.map (fun m => (m.attributes, m.bare)) =
            b'.members.map fun m => (m.attributes, m.bare) := by
          rw [← List.zip_map', ← List.zip_map', rest]
          exact congrArg (List.zip · _) same
        refine List.map_injective_iff.2 (fun m n alike => ?_) both
        obtain ⟨same, others⟩ := Prod.mk.inj alike
        exact BlockMember.bare_inj same others
      exact congrArg Item.block
        (calc b
          _ = { { b with members := b.members.map BlockMember.bare } with
                members := b.members } := rfl
          _ = { { b' with members := b'.members.map BlockMember.bare } with
                members := b'.members } := by rw [others, members])
    | _ => cases others
  | module head items =>
    cases j with
    | module head' items' => exact others
    | _ => cases others
  | other tokens =>
    cases j with
    | other tokens' => exact others
    | _ => cases others

theorem sheds_withoutHelpers (i : Item) : i.Sheds i.withoutHelpers := by
  cases i with
  | record r =>
    exact ⟨congrArg (fun as => [as]) (Attribute.dropHelpers_eq r.attributes), rfl⟩
  | block b =>
    constructor
    · simp only [attributeLists, withoutHelpers, List.map_map, List.map_inj_left,
        Function.comp_apply]
      exact fun m _ => m.withoutHelpers_attributes
    · simp only [bare, withoutHelpers, List.map_map, Item.block.injEq, BlockItem.mk.injEq, true_and,
        List.map_inj_left, Function.comp_apply]
      exact fun m _ => m.withoutHelpers_bare
  | module head items => exact ⟨rfl, rfl⟩
  | other tokens => exact ⟨rfl, rfl⟩

theorem sheds_iff : i.Sheds j ↔ j = i.withoutHelpers := by
  constructor
  · intro sheds
    have made := i.sheds_withoutHelpers
    exact bare_inj (sheds.attributes.trans made.attributes.symm)
      (sheds.others.trans made.others.symm)
  · rintro rfl
    exact i.sheds_withoutHelpers

theorem forall₂_sheds_iff {items kept : List Item} :
    List.Forall₂ Sheds items kept ↔ kept = items.map withoutHelpers := by
  have single : Sheds = fun i j => i.withoutHelpers = j :=
    funext₂ fun i j => propext (sheds_iff.trans eq_comm)
  rw [single, ← List.forall₂_map_left_iff (R := Eq), List.forall₂_eq_eq_eq]
  exact eq_comm

theorem withoutHelpers_withoutHelpers (i : Item) :
    i.withoutHelpers.withoutHelpers = i.withoutHelpers := by
  have again := i.withoutHelpers.sheds_withoutHelpers
  have once := i.sheds_withoutHelpers
  refine bare_inj ?_ again.others
  rw [again.attributes, once.attributes, List.map_map]
  exact List.map_congr_left fun as _ => by simp

end Item

end Grammar

namespace Finding

/-- The finding asks for nothing, changes no member and is no fault. -/
def Silent : Finding → Prop
  | .type _ | .accessor .. | .setter _ => True
  | .contribution .. | .fault _ => False

theorem bearers_silent {findings : List Finding} (silent : ∀ f ∈ findings, f.Silent) :
    bearers findings = [] := by
  rw [bearers_eq]
  refine List.foldlRecOn (motive := (· = [])) findings addBearer rfl fun bs none f inside => ?_
  cases f with
  | contribution n place c => exact (silent _ inside).elim
  | _ => exact none

theorem faults_silent {findings : List Finding} (silent : ∀ f ∈ findings, f.Silent) :
    faults findings = [] := by
  refine List.filterMap_eq_nil_iff.2 fun f inside => ?_
  cases f with
  | fault f => exact (silent _ inside).elim
  | _ => rfl

end Finding

section Reading

variable {locate : Nat → Location} {scope : Scope} {items : List Item} {finding : Finding}

theorem SourceUnit.ofFindings_silent {findings : List Finding}
    (silent : ∀ f ∈ findings, f.Silent) :
    ∃ u, ofFindings locate findings = .ok u ∧ u.bearers = [] := by
  unfold ofFindings
  rw [Finding.faults_silent silent]
  exact ⟨_, rfl, Finding.bearers_silent silent⟩

/-- The finding is what is read of a helper attribute, and the attribute is one of those that are
taken out. -/
def Finding.OfHelper (scope : Scope) (items : List Item) (finding : Finding) : Prop :=
  ∃ (s : Spot) (front : List Attribute) (a : Attribute) (back : List Attribute) (n : TypeName)
    (place : Nat) (reading : Except AttributeFault Contribution),
    items = s.fill (front ++ a :: back) ∧ a.helper?.isSome = true ∧
      s.reading? scope front a back = some (n, reading) ∧
      finding = Finding.ofContribution n place reading

theorem Finding.of_recordItem {before after : List Item} {item : Item}
    (found : finding ∈ ofRecordItem scope item) :
    finding.Silent ∨ finding.OfHelper scope (before ++ item :: after) := by
  cases item with
  | record r =>
    rcases List.mem_cons.1 found with rfl | found
    · exact Or.inl trivial
    · obtain ⟨reading, given, rfl⟩ := List.mem_map.1 found
      obtain ⟨a, inside, read⟩ := List.mem_filterMap.1 given
      obtain ⟨front, back, split⟩ := List.append_of_mem inside
      refine Or.inr ⟨.record before r after, front, a, back, SourceType.nameOf scope r, r.place,
        reading, by rw [Spot.fill, ← split], ?_, ?_, rfl⟩
      · obtain ⟨helper, same, -⟩ := Option.map_eq_some_iff.1 read
        rw [same]
        rfl
      · rw [Spot.reading?, read]
        rfl
  | _ => cases found

theorem Finding.of_blockItem {before after : List Item} {item : Item}
    (found : finding ∈ ofBlockItem scope item) :
    finding.Silent ∨ finding.OfHelper scope (before ++ item :: after) := by
  cases item with
  | block b =>
    rw [ofBlockItem, ofBlock] at found
    split at found
    · rename_i owner named
      obtain ⟨m, inside, found⟩ := List.mem_flatMap.1 found
      cases m with
      | other tokens => cases found
      | function f =>
        obtain ⟨first, last, members⟩ := List.append_of_mem inside
        rw [ofMember, ofFunction] at found
        split at found
        · rename_i a decides
          obtain ⟨kind, front, back, split, before_⟩ := List.find?_eq_some_iff_append.1 decides
          have kind : a.helper? = some .viewProperty := by simpa using kind
          have others : ∀ x ∈ front, x.helper? ≠ some .viewProperty := by simpa using before_
          refine Or.inr ⟨.function before b first f last after, front, a, back, owner, f.place, _,
            by rw [Spot.fill, ← split, ← members], by rw [kind]; rfl, ?_,
            List.mem_singleton.1 found⟩
          rw [Spot.reading?, if_pos ⟨kind, others⟩, named, ← split]
          rfl
        · simp only [List.mem_append, Option.mem_toList, Option.map_eq_some_iff] at found
          rcases found with ⟨m, -, rfl⟩ | ⟨s, -, rfl⟩
          · exact Or.inl trivial
          · exact Or.inl trivial
    · cases found
  | _ => cases found

/-- Whatever is read besides records, accessors and setters is read of helper attributes that are
taken out. -/
theorem Finding.silent_or_ofHelper (found : finding ∈ ofModules [(scope, items)]) :
    finding.Silent ∨ finding.OfHelper scope items := by
  simp only [ofModules, List.flatMap_singleton, List.mem_append, List.mem_flatMap] at found
  rcases found with ⟨item, inside, found⟩ | ⟨item, inside, found⟩
  · obtain ⟨before, after, rfl⟩ := List.append_of_mem inside
    exact of_recordItem found
  · obtain ⟨before, after, rfl⟩ := List.append_of_mem inside
    exact of_blockItem found

theorem Finding.silent_of_free (free : items.map Item.withoutHelpers = items) :
    ∀ finding ∈ ofModules [(scope, items)], finding.Silent := by
  intro finding found
  rcases silent_or_ofHelper found with silent | ⟨s, front, a, back, _, _, _, standing, helper, -⟩
  · exact silent
  · have none := withoutHelpers_eq_self_iff.1 free s front a back standing
    rw [none] at helper
    cases helper

theorem SourceUnit.ofItems_free (locate : Nat → Location) (scope : Scope)
    (free : items.map Item.withoutHelpers = items) :
    ∃ u, ofItems locate scope items = .ok u ∧ u.bearers = [] :=
  ofFindings_silent (Finding.silent_of_free free)

end Reading

end RecordViews
