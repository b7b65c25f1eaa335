import RecordViews.Proofs.Contributions
import RecordViews.Proofs.Parameters

/-! Helper attributes that are taken out of items before these are compiled. All of those on a
record are read, but of those on a function only the first of its kind, and only in a block of a
record. The others leave no trace, not even if they are wrong. -/

namespace RecordViews

open Grammar (Item RecordItem BlockItem BlockMember FunctionItem Attribute)

inductive Spot where
  | record (before : List Item) (r : RecordItem) (after : List Item)
  | function (before : List Item) (b : BlockItem) (front : List BlockMember) (f : FunctionItem)
      (back : List BlockMember) (after : List Item)

def Spot.fill (as : List Attribute) : Spot → List Item
  | .record before r after => before ++ .record { r with attributes := as } :: after
  | .function before b front f back after =>
    before ++ .block { b with members := front ++ .function { f with attributes := as } :: back } ::
      after

section Taken

variable {as as' : List Attribute} {a : Attribute} {items : List Item}

theorem Grammar.Attribute.dropHelpers_eq_self_iff :
    Attribute.dropHelpers as = as ↔ ∀ a ∈ as, a.helper? = none := by
  simp [Attribute.dropHelpers]

theorem Spot.withoutHelpers_fill (s : Spot)
    (h : Attribute.dropHelpers as = Attribute.dropHelpers as') :
    (s.fill as).map Item.withoutHelpers = (s.fill as').map Item.withoutHelpers := by
  cases s <;> simp [fill, Item.withoutHelpers, BlockMember.withoutHelpers, h]

theorem map_eq_self_iff {α : Type} {f : α → α} {l : List α} : l.map f = l ↔ ∀ a ∈ l, f a = a := by
  simpa using List.map_inj_left (f := f) (g := id) (l := l)

/-- Attributes are taken out of spots only, and everything that is taken out is a helper. -/
theorem withoutHelpers_eq_self_iff :
    items.map Item.withoutHelpers = items ↔
      ∀ (s : Spot) front a back, items = s.fill (front ++ a :: back) → a.helper? = none := by
  rw [map_eq_self_iff]
  constructor
  · intro kept s front a back at_
    have free (same : Attribute.dropHelpers (front ++ a :: back) = front ++ a :: back) :
        a.helper? = none :=
      Attribute.dropHelpers_eq_self_iff.1 same a (by simp)
    cases s with
    | record before r after =>
      have := kept (.record { r with attributes := front ++ a :: back }) (by simp [at_, Spot.fill])
      injection this with this
      exact free (congrArg RecordItem.attributes this)
    | function before b first f last after =>
      have := kept _ (by rw [at_, Spot.fill]; exact List.mem_append_right _ List.mem_cons_self)
      injection this with this
      have := map_eq_self_iff.1 (congrArg BlockItem.members this)
        (.function { f with attributes := front ++ a :: back }) (by simp)
      injection this with this
      exact free (congrArg FunctionItem.attributes this)
  · intro none item inside
    obtain ⟨before, after, rfl⟩ := List.append_of_mem inside
    cases item with
    | record r =>
      have free : ∀ a ∈ r.attributes, a.helper? = Option.none := by
        intro a ha
        obtain ⟨front, back, split⟩ := List.append_of_mem ha
        exact none (.record before r after) front a back (by rw [Spot.fill, ← split])
      rw [Item.withoutHelpers, Attribute.dropHelpers_eq_self_iff.2 free]
    | block b =>
      have free : ∀ m ∈ b.members, m.withoutHelpers = m := by
        intro m hm
        obtain ⟨first, last, members⟩ := List.append_of_mem hm
        cases m with
        | function f =>
          have free : ∀ a ∈ f.attributes, a.helper? = Option.none := by
            intro a ha
            obtain ⟨front, back, split⟩ := List.append_of_mem ha
            refine none (.function before b first f last after) front a back ?_
            rw [Spot.fill, ← split, ← members]
          rw [BlockMember.withoutHelpers, Attribute.dropHelpers_eq_self_iff.2 free]
        | other tokens => rfl
      rw [Item.withoutHelpers, map_eq_self_iff.2 free]
    | module head items => rfl
    | other tokens => rfl

end Taken

/-- What an attribute at the spot is read as, and for which bearer, if it is read. -/
def Spot.reading? (scope : Scope) (front : List Attribute) (a : Attribute) (back : List Attribute) :
    Spot → Option (TypeName × Except AttributeFault Contribution)
  | .record _ r _ =>
    (Finding.contribution? scope a).map fun reading => (SourceType.nameOf scope r, reading)
  | .function _ b _ f _ _ =>
    if a.helper? = some .viewProperty ∧ ∀ x ∈ front, x.helper? ≠ some .viewProperty then
      (Finding.owner? scope b).map fun owner =>
        (owner, Finding.ofRole (Signature.ofItem owner { f with attributes := front ++ a :: back })
          <$> FunctionRole.ofAttribute a)
    else none

/-- The spots where an attribute is read. -/
def Spot.Reads (scope : Scope) (front : List Attribute) (a : Attribute) : Spot → Prop
  | .record .. => True
  | .function _ b _ _ _ _ =>
    (Finding.owner? scope b).isSome = true ∧ a.helper? = some .viewProperty ∧
      ∀ x ∈ front, x.helper? ≠ some .viewProperty

/-- What is read for a bearer is carried by it in the end, among all that is contributed to it, or
is one of the faults. -/
def Accounts (unit : Except (List AttributeFault) SourceUnit) (n : TypeName) :
    Except AttributeFault Contribution → Prop
  | .ok c => ∀ u, unit = .ok u → ∃ b ∈ u.bearers, b.name.text = n.text ∧ c.CarriedBy b ∧
      ∃ cs, c ∈ cs ∧ b = Bearer.ofContributions b.name cs
  | .error f => ∃ fs, unit = .error fs ∧ f ∈ fs

section Reading

variable {locate : Nat → Location} {scope : Scope} {front back as as' : List Attribute}
  {a : Attribute} {s : Spot} {findings : List Finding} {n : TypeName} {place : Nat}
  {reading : Except AttributeFault Contribution}

theorem Spot.reading?_isSome_iff (helper : a.helper?.isSome = true) :
    (s.reading? scope front a back).isSome = true ↔ s.Reads scope front a := by
  cases s with
  | record before r after => simpa [reading?, Reads, Finding.contribution?] using helper
  | function before b first f last after =>
    simp only [reading?, Reads]
    by_cases read : a.helper? = some .viewProperty ∧ ∀ x ∈ front, x.helper? ≠ some .viewProperty
    · rw [if_pos read, Option.isSome_map]
      exact (and_iff_left read).symm
    · rw [if_neg read]
      exact iff_of_false nofun fun h => read h.2

/-- Findings from the reading of attributes are accounted for. -/
theorem accounts_of_found (h : Finding.ofContribution n place reading ∈ findings) :
    Accounts (SourceUnit.ofFindings locate findings) n reading := by
  cases reading with
  | error f =>
    have fault : f ∈ Finding.faults findings := List.mem_filterMap.2 ⟨_, h, rfl⟩
    unfold SourceUnit.ofFindings
    split
    · rename_i none
      rw [none] at fault
      cases fault
    · exact ⟨_, rfl, fault⟩
  | ok c =>
    intro u read
    have held := Finding.bearers_holdFor n findings
    have mem := Finding.mem_contributions h
    rw [(SourceUnit.ofFindings_ok read).2]
    cases cs : Finding.contributions n findings with
    | nil =>
      rw [cs] at mem
      cases mem
    | cons d rest =>
      rw [cs] at held mem
      obtain ⟨b, found, made⟩ := held
      refine ⟨b, List.mem_of_find?_eq_some found, by simpa using List.find?_some found, ?_⟩
      refine ⟨?_, d :: rest, mem, made⟩
      rw [made]
      exact Contribution.carriedBy_ofContributions mem _

theorem Spot.found (h : s.reading? scope front a back = some (n, reading)) :
    ∃ place, Finding.ofContribution n place reading ∈
      Finding.ofModules [(scope, s.fill (front ++ a :: back))] := by
  cases s with
  | record before r after =>
    obtain ⟨found, contributed, same⟩ := Option.map_eq_some_iff.1 h
    obtain ⟨rfl, rfl⟩ := Prod.mk.inj same
    refine ⟨r.place, List.mem_append_left _ (List.mem_flatMap.2 ⟨_, List.mem_singleton_self _, ?_⟩)⟩
    refine List.mem_flatMap.2 ⟨_, List.mem_append_right _ List.mem_cons_self, ?_⟩
    refine List.mem_cons_of_mem _ (List.mem_map_of_mem (List.mem_filterMap.2 ⟨a, ?_, contributed⟩))
    simp
  | function before b first f last after =>
    simp only [reading?] at h
    by_cases read : a.helper? = some .viewProperty ∧ ∀ x ∈ front, x.helper? ≠ some .viewProperty
    · rw [if_pos read] at h
      obtain ⟨owner, named, same⟩ := Option.map_eq_some_iff.1 h
      obtain ⟨rfl, rfl⟩ := Prod.mk.inj same
      have decides : (front ++ a :: back).find? (·.helper? == some .viewProperty) = some a := by
        rw [List.find?_append, List.find?_eq_none.2 (by simpa using read.2), Option.none_or,
          List.find?_cons_of_pos (by simpa using read.1)]
      refine ⟨f.place, List.mem_append_right _
        (List.mem_flatMap.2 ⟨_, List.mem_singleton_self _, ?_⟩)⟩
      refine List.mem_flatMap.2 ⟨_, List.mem_append_right _ List.mem_cons_self, ?_⟩
      rw [Finding.ofBlockItem, Finding.ofBlock]
      have same : Finding.owner? scope { b with
          members := first ++ .function { f with attributes := front ++ a :: back } :: last } =
          some owner := named
      rw [same]
      refine List.mem_flatMap.2 ⟨_, List.mem_append_right _ List.mem_cons_self, ?_⟩
      rw [Finding.ofMember, Finding.ofFunction, decides]
      exact List.mem_singleton_self _
    · rw [if_neg read] at h
      cases h

/-- Where attributes document the same and have the same first one on properties, the function is
read as the same. -/
theorem Finding.ofFunction_congr {owner : TypeName} {f : FunctionItem}
    (docs : docComment? as = docComment? as')
    (first : as.find? (·.helper? == some .viewProperty) =
      as'.find? (·.helper? == some .viewProperty)) :
    ofFunction owner { f with attributes := as } =
      ofFunction owner { f with attributes := as' } := by
  unfold ofFunction
  simp only [first]
  cases as'.find? (·.helper? == some .viewProperty) with
  | some a =>
    simp only [Signature.ofItem, docs]
    rfl
  | none =>
    simp only [FunctionItem.accessor?, docs]
    rfl

theorem docComment?_helper (helper : a.helper?.isSome = true) :
    docComment? (front ++ a :: back) = docComment? (front ++ back) := by
  have other : a.path.single? ≠ some "doc" := by
    intro doc
    rw [Attribute.helper?, Grammar.Path.single?_eq_some doc] at helper
    exact absurd helper (by decide)
  have silent : docLine? a = none := by
    unfold docLine?
    split
    · exact absurd ‹_› other
    · rfl
  rw [docComment?, docComment?, List.filterMap_append, List.filterMap_cons, silent,
    List.filterMap_append]

theorem ofModules_function_congr {before after : List Item} {b : BlockItem}
    {first last : List BlockMember} {f : FunctionItem}
    (h : ∀ owner, Finding.owner? scope b = some owner →
      Finding.ofFunction owner { f with attributes := as } =
        Finding.ofFunction owner { f with attributes := as' }) :
    Finding.ofModules [(scope, (Spot.function before b first f last after).fill as)] =
      Finding.ofModules [(scope, (Spot.function before b first f last after).fill as')] := by
  have block (as : List Attribute) : Finding.ofBlockItem scope (.block { b with
      members := first ++ .function { f with attributes := as } :: last }) =
        (Finding.owner? scope b).elim [] fun owner => first.flatMap (Finding.ofMember owner) ++
          (Finding.ofFunction owner { f with attributes := as } ++
            last.flatMap (Finding.ofMember owner)) := by
    have same : Finding.owner? scope { b with
        members := first ++ .function { f with attributes := as } :: last } =
          Finding.owner? scope b := rfl
    rw [Finding.ofBlockItem, Finding.ofBlock, same]
    cases Finding.owner? scope b with
    | some owner => simp [Finding.ofMember]
    | none => rfl
  have alike : Finding.ofBlockItem scope (.block { b with
      members := first ++ .function { f with attributes := as } :: last }) =
        Finding.ofBlockItem scope (.block { b with
          members := first ++ .function { f with attributes := as' } :: last }) := by
    rw [block, block]
    cases named : Finding.owner? scope b with
    | some owner => simp only [Option.elim_some, h owner named]
    | none => rfl
  simp only [Finding.ofModules, Spot.fill, List.flatMap_cons, List.flatMap_append, alike,
    Finding.ofRecordItem]

/-- Attributes are taken out of records and of functions in blocks, and only helpers are. Each of
them is read where it can be, and then a bearer carries what it asks for, unless it is wrong and the
items cannot be read for it. Elsewhere the items are read as if it were not there. -/
theorem SourceUnit.helper_attributes_accounted (locate : Nat → Location) (scope : Scope)
    (items : List Item) :
    (items.map Item.withoutHelpers = items ↔
      ∀ (s : Spot) front a back, items = s.fill (front ++ a :: back) → a.helper? = none) ∧
    ∀ (s : Spot) front a back, items = s.fill (front ++ a :: back) → a.helper?.isSome = true →
      items.map Item.withoutHelpers = (s.fill (front ++ back)).map Item.withoutHelpers ∧
      (s.Reads scope front a → ∃ n reading, s.reading? scope front a back = some (n, reading) ∧
        Accounts (ofItems locate scope items) n reading) ∧
      (¬ s.Reads scope front a →
        ofItems locate scope items = ofItems locate scope (s.fill (front ++ back))) := by
  refine ⟨withoutHelpers_eq_self_iff, fun s front a back standing helper => ?_⟩
  subst standing
  refine ⟨?_, fun reads => ?_, fun skipped => ?_⟩
  · refine s.withoutHelpers_fill ?_
    simp [Attribute.dropHelpers, Option.isSome_iff_ne_none.1 helper]
  · obtain ⟨⟨n, reading⟩, read⟩ :=
      Option.isSome_iff_exists.1 ((Spot.reading?_isSome_iff helper).2 reads)
    obtain ⟨place, found⟩ := Spot.found read
    exact ⟨n, reading, read, accounts_of_found found⟩
  · cases s with
    | record before r after => exact absurd trivial skipped
    | function before b first f last after =>
      refine congrArg (ofFindings locate) (ofModules_function_congr fun owner named => ?_)
      refine Finding.ofFunction_congr (docComment?_helper helper) ?_
      -- the attribute is of another kind, or one in front decides
      rw [List.find?_append, List.find?_append, List.find?_cons]
      by_cases kind : a.helper? = some .viewProperty
      · have decided : ∃ x ∈ front, x.helper? = some .viewProperty := by
          by_contra none
          exact skipped ⟨by simp [named], kind, fun x inside first => none ⟨x, inside, first⟩⟩
        have decided : (front.find? (·.helper? == some .viewProperty)).isSome = true := by
          simpa [List.find?_isSome] using decided
        rw [Option.or_of_isSome decided, Option.or_of_isSome decided]
      · simp only [beq_eq_false_iff_ne.2 kind]

end Reading

def labelSpot : Spot :=
  .function [] { (default : BlockItem) with selfType := .path (.ofNames ["crate", "Person"]) } []
    (SourceUnit.labelFunction (.ofNames ["crate", "Person"])) [] []

def propertyAttribute (option value : String) : Attribute where
  path := .ofNames ["view_property"]
  args := .list .paren [.ident option, .punct '=' false, .literal value]

def newLabel : Attribute :=
  propertyAttribute "new" "\"label\""

/-- There is no such option. -/
def colour : Attribute :=
  propertyAttribute "colour" "\"red\""

def labelAddition : Addition where
  name := "label"
  function :=
    .ofItem SourceUnit.labelOwner (SourceUnit.labelFunction (.ofNames ["crate", "Person"]))

/-- The first attribute on properties is read. -/
theorem first_attribute_carried :
    newLabel.helper?.isSome = true ∧ ∃ u,
      SourceUnit.ofItems (fun _ => ⟨1, 0⟩) ["crate"] (labelSpot.fill [newLabel, colour]) = .ok u ∧
      ∃ b ∈ u.bearers, b.name.text = SourceUnit.labelOwner.text ∧ labelAddition ∈ b.additions := by
  have helper : newLabel.helper?.isSome = true := by decide
  obtain ⟨u, unit⟩ : ∃ u, SourceUnit.ofItems (fun _ => ⟨1, 0⟩) ["crate"]
    (labelSpot.fill [newLabel, colour]) = .ok u := ⟨_, rfl⟩
  obtain ⟨-, each⟩ := SourceUnit.helper_attributes_accounted (fun _ => ⟨1, 0⟩) ["crate"]
    (labelSpot.fill [newLabel, colour])
  obtain ⟨-, accounted, -⟩ := each labelSpot [] newLabel [colour] rfl helper
  obtain ⟨n, reading, read, held⟩ := accounted ⟨rfl, rfl, by simp⟩
  obtain ⟨rfl, rfl⟩ : SourceUnit.labelOwner = n ∧ .ok (.addition labelAddition) = reading :=
    Prod.mk.inj (Option.some.inj read)
  obtain ⟨b, inside, named, carried, -⟩ := held u unit
  exact ⟨helper, u, unit, b, inside, named, carried⟩

/-- A second one is taken out as well, but not even looked at: what it asks for does not exist, and
yet the items are read. -/
theorem second_attribute_lost :
    (labelSpot.fill [newLabel, colour]).map Item.withoutHelpers = labelSpot.fill [] ∧
      FunctionRole.ofAttribute colour = .error (.unsupported .viewProperty "colour") ∧
      ∃ u, SourceUnit.ofItems (fun _ => ⟨1, 0⟩) ["crate"] (labelSpot.fill [newLabel, colour]) =
          .ok u ∧
        u.bearers = [{ name := SourceUnit.labelOwner, additions := [labelAddition] }] :=
  ⟨rfl, rfl, _, rfl, rfl⟩

end RecordViews
