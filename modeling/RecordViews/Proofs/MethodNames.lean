import Mathlib.Data.List.Nodup
import RecordViews.Proofs.CharacterTables
import RecordViews.Proofs.UnwritableNames
import RecordViews.Proofs.Words

/-! The functions of a generated record. A property may ask for a getter and a setter, and their
identifiers can meet crosswise: `get_new` is the getter of a property of this name and of the
property `new`. `View.Clashes` speaks of the positions of the properties and says nothing of how the
check works; writing a record fails for a repeated function exactly then, and a record that is
written has each function once, the constructors included. -/

namespace RecordViews

open Grammar (Path)

inductive Accessor where
  | getter
  | setter
deriving DecidableEq

namespace Accessor

def access (p : Property) : Accessor → Access
  | getter => p.getter
  | setter => p.setter

def identifier (names : MemberNames) : Accessor → String
  | getter => names.getter
  | setter => names.setter

end Accessor

namespace View

/-- The property at a position asks for the function, which is given this identifier. -/
def Asks (v : View) (i : Nat) (a : Accessor) (name : String) : Prop :=
  ∃ p names, v.properties[i]? = some p ∧ a.access p ≠ .none ∧
    MemberNames.ofName p.name = .ok names ∧ a.identifier names = name

/-- Two functions that properties ask for are given one identifier. -/
def Clashes (v : View) : Prop :=
  ∃ i a j b name, (i, a) ≠ (j, b) ∧ v.Asks i a name ∧ v.Asks j b name

end View

/-- The identifier that a word is written as, if it can be. -/
def writtenWord (word : String) : String :=
  if isKeyword word then "r#" ++ word else word

theorem Plain.identifier_eq {name i : String} (plain : Plain name) (h : identifier? name = some i) :
    i = writtenWord (unraw i) := by
  rw [plain.unraw_identifier h]
  have written := identifier?_eq_some_iff.1 h
  unfold identifier at written
  dsimp only at written
  rw [plain.1] at written
  dsimp only at written
  rw [writtenWord]
  split at written
  · rename_i free
    rw [if_neg (by simpa using free)]
    exact (Except.ok.inj written).symm
  · rename_i keyword
    rw [if_pos (by simpa using keyword)]
    split at written
    · nomatch written
    · rw [asIdentifier, if_pos plain.1] at written
      exact (Except.ok.inj written).symm

theorem setter_not_mem (words : List String) (other : ∀ w ∈ words, ¬ "set_".toList <+: w.toList)
    (bare : String) : "set_" ++ bare ∉ words := by
  intro there
  apply other _ there
  rw [String.toList_append]
  exact List.prefix_append _ _

theorem setter_written (bare : String) : "set_" ++ bare = writtenWord (unraw ("set_" ++ bare)) := by
  have unmarked : unraw ("set_" ++ bare) = "set_" ++ bare := by
    have start : ("set_" ++ bare).toList = 's' :: 'e' :: 't' :: '_' :: bare.toList := by
      rw [String.toList_append]
      rfl
    simp only [unraw, start]
    rfl
  have free : isKeyword ("set_" ++ bare) = false := by
    simpa [isKeyword] using setter_not_mem keywords (by decide) bare
  rw [unmarked, writtenWord, free]
  rfl

namespace MemberNames

variable {n : String} {names : MemberNames}

/-- No getter takes the name of a function that every view may have. -/
theorem getter_not_reserved (plain : Plain n) (h : ofName n = .ok names) :
    names.getter ∉ reserved := by
  obtain ⟨word, getter, -⟩ := ofName_ok h
  rw [getter]
  split
  · rename_i old
    have fresh : ∀ w ∈ reserved, "get_" ++ w ∉ reserved := by decide
    exact fresh _ (by simpa using old)
  · rename_i new
    intro field
    have own : ∀ w ∈ reserved, unraw w = w := by decide
    apply new
    rw [← plain.unraw_identifier word, own _ field]
    simpa using field

theorem setter_not_reserved (h : ofName n = .ok names) : names.setter ∉ reserved := by
  rw [(ofName_ok h).2.2]
  exact setter_not_mem _ (by decide) _

theorem written (plain : Plain n) (h : ofName n = .ok names) (a : Accessor) :
    a.identifier names = writtenWord (unraw (a.identifier names)) := by
  obtain ⟨word, getter, setter⟩ := ofName_ok h
  cases a with
  | getter =>
    simp only [Accessor.identifier]
    rw [getter]
    split
    · rename_i old
      have plainly : ∀ w ∈ reserved, "get_" ++ w = writtenWord (unraw ("get_" ++ w)) := by decide
      exact plainly _ (by simpa using old)
    · exact plain.identifier_eq word
  | setter =>
    simp only [Accessor.identifier]
    rw [setter]
    exact setter_written (unraw n)

end MemberNames

namespace Slot

variable {slots : List Slot} {s : Slot}

theorem mem_functions_iff {f : String} :
    f ∈ s.functions ↔ ∃ a : Accessor, a.access s.property ≠ .none ∧ a.identifier s.names = f := by
  have asked (access : Access) : (!access.isNone) = true ↔ access ≠ .none := by
    cases access <;> decide
  simp only [functions, Property.hasGetter, Property.hasSetter, asked, List.mem_append]
  constructor
  · rintro (h | h) <;> split at h
    · exact ⟨.getter, ‹_›, (List.mem_singleton.1 h).symm⟩
    · cases h
    · exact ⟨.setter, ‹_›, (List.mem_singleton.1 h).symm⟩
    · cases h
  · rintro ⟨a, asked, rfl⟩
    cases a with
    | getter =>
      left
      rw [Accessor.access] at asked
      simp [asked, Accessor.identifier]
    | setter =>
      right
      rw [Accessor.access] at asked
      simp [asked, Accessor.identifier]

theorem functions_nodup_iff : s.functions.Nodup ↔ ∀ a b : Accessor,
    a.access s.property ≠ .none → b.access s.property ≠ .none →
      a.identifier s.names = b.identifier s.names → a = b := by
  have asked (access : Access) : (!access.isNone) = true ↔ access ≠ .none := by
    cases access <;> decide
  simp only [functions, Property.hasGetter, Property.hasSetter, asked]
  constructor
  · intro once a b ha hb same
    cases a <;> cases b
    · rfl
    · simp only [Accessor.access] at ha hb
      simp [ha, hb] at once
      exact absurd same once
    · simp only [Accessor.access] at ha hb
      simp [ha, hb] at once
      exact absurd same.symm once
    · rfl
  · intro apart
    by_cases getter : s.property.getter ≠ .none
    · by_cases setter : s.property.setter ≠ .none
      · have ne : s.names.getter ≠ s.names.setter := fun same =>
          Accessor.noConfusion (apart .getter .setter getter setter same)
        simp [getter, setter, ne]
      · simp [getter, setter]
    · simp only [if_neg getter, List.nil_append]
      split <;> simp

end Slot

namespace View

variable {v : View} {slots : List Slot}

theorem asks_iff (properties : slots.map (·.property) = v.properties)
    (named : ∀ s ∈ slots, MemberNames.ofName s.property.name = .ok s.names) {i : Nat}
    {a : Accessor} {name : String} :
    v.Asks i a name ↔ ∃ s, slots[i]? = some s ∧ a.access s.property ≠ .none ∧
      a.identifier s.names = name := by
  unfold Asks
  rw [← properties]
  simp only [List.getElem?_map, Option.map_eq_some_iff]
  constructor
  · rintro ⟨p, names, ⟨s, hs, rfl⟩, asked, word, same⟩
    rw [named s (List.mem_of_getElem? hs)] at word
    obtain rfl := Except.ok.inj word
    exact ⟨s, hs, asked, same⟩
  · rintro ⟨s, hs, asked, same⟩
    exact ⟨s.property, s.names, ⟨s, hs, rfl⟩, asked, named s (List.mem_of_getElem? hs), same⟩

/-- No functions clash exactly if all functions of the slots differ. -/
theorem not_clashes_iff (properties : slots.map (·.property) = v.properties)
    (named : ∀ s ∈ slots, MemberNames.ofName s.property.name = .ok s.names) :
    ¬ v.Clashes ↔ (slots.flatMap Slot.functions).Nodup := by
  have asks {i : Nat} {a : Accessor} {name : String} : v.Asks i a name ↔
      ∃ s, slots[i]? = some s ∧ a.access s.property ≠ .none ∧ a.identifier s.names = name :=
    asks_iff properties named
  rw [List.nodup_flatMap, List.pairwise_iff_getElem]
  constructor
  · intro free
    refine ⟨fun s hs => Slot.functions_nodup_iff.2 fun a b ha hb same => ?_,
      fun i j hi hj lt f hf hf' => ?_⟩
    · obtain ⟨i, at_i⟩ := List.mem_iff_getElem?.1 hs
      by_contra ne
      exact free ⟨i, a, i, b, _, by simpa using ne, asks.2 ⟨s, at_i, ha, rfl⟩,
        asks.2 ⟨s, at_i, hb, same.symm⟩⟩
    · obtain ⟨a, ha, same⟩ := Slot.mem_functions_iff.1 hf
      obtain ⟨b, hb, same'⟩ := Slot.mem_functions_iff.1 hf'
      have ne : (i, a) ≠ (j, b) := fun e => Nat.ne_of_lt lt (congrArg Prod.fst e)
      exact free ⟨i, a, j, b, f, ne, asks.2 ⟨_, List.getElem?_eq_getElem hi, ha, same⟩,
        asks.2 ⟨_, List.getElem?_eq_getElem hj, hb, same'⟩⟩
  · rintro ⟨own, apart⟩ ⟨i, a, j, b, name, ne, first, second⟩
    obtain ⟨s, hs, ha, same⟩ := asks.1 first
    obtain ⟨t, ht, hb, same'⟩ := asks.1 second
    have in_s : name ∈ s.functions := Slot.mem_functions_iff.2 ⟨a, ha, same⟩
    have in_t : name ∈ t.functions := Slot.mem_functions_iff.2 ⟨b, hb, same'⟩
    obtain ⟨hi, rfl⟩ := List.getElem?_eq_some_iff.1 hs
    obtain ⟨hj, rfl⟩ := List.getElem?_eq_some_iff.1 ht
    rcases Nat.lt_trichotomy i j with lt | rfl | gt
    · exact apart i j hi hj lt in_s in_t
    · have once := Slot.functions_nodup_iff.1 (own _ (List.getElem_mem hi))
      exact ne (Prod.ext rfl (once a b ha hb (same.trans same'.symm)))
    · exact apart j i hj hi gt in_t in_s

end View

/-- What fails here does not fail for a repeated function. -/
def NotRepeated {α : Type} (x : Except Failure α) : Prop :=
  ∀ view name, x ≠ .error (.render view (.repeatedMethod name))

namespace NotRepeated

variable {α β : Type}

theorem ok (a : α) : NotRepeated (.ok a) := nofun

theorem bind {x : Except Failure α} {f : α → Except Failure β} (h : NotRepeated x)
    (later : ∀ a, NotRepeated (f a)) : NotRepeated (x >>= f) := by
  cases x with
  | error e =>
    exact fun view name same => h view name (congrArg Except.error (Except.error.inj same))
  | ok a => exact later a

theorem map {x : Except Failure α} (h : NotRepeated x) (f : α → β) : NotRepeated (x.map f) := by
  cases x with
  | error e =>
    exact fun view name same => h view name (congrArg Except.error (Except.error.inj same))
  | ok a => exact ok _

theorem mapM {f : α → Except Failure β} (h : ∀ a, NotRepeated (f a)) (l : List α) :
    NotRepeated (l.mapM f) := by
  induction l with
  | nil => exact ok _
  | cons a rest ih =>
    rw [List.mapM_cons]
    exact (h a).bind fun b => ih.bind fun bs => ok _

open GeneratedRecord

theorem written (view : TypeName) (e : Except NameFault α) :
    NotRepeated (GeneratedRecord.written view e) := by
  cases e with
  | error fault =>
    intro _ _ same
    cases fault <;> cases Except.error.inj same
  | ok a => exact ok a

theorem valueOf (v : View) (p : Property) : NotRepeated (GeneratedRecord.valueOf v p) := by
  unfold GeneratedRecord.valueOf
  split
  · intro _ _ same
    cases Except.error.inj same
  · refine (written _ _).bind fun extracted => ?_
    dsimp only
    split
    · exact ok _
    · exact (written _ _).bind fun path => ok _

theorem copyFunction (v : View) (source : Path) (slots : List Slot) :
    NotRepeated (GeneratedRecord.copyFunction v source slots) := by
  unfold GeneratedRecord.copyFunction
  split
  · exact ok _
  · exact (mapM (fun s => (valueOf v s.property).map _) slots).bind fun values => ok _

theorem getterFunction (v : View) (s : Slot) :
    NotRepeated (GeneratedRecord.getterFunction v s) := by
  unfold GeneratedRecord.getterFunction getterBody
  split
  · exact ok _
  · refine bind ?_ fun body => ok _
    split
    · exact ok _
    · exact (written _ _).map _

theorem accessors (v : View) (slots : List Slot) :
    NotRepeated (GeneratedRecord.accessors v slots) := by
  induction slots with
  | nil => exact ok _
  | cons s rest ih => exact (getterFunction v s).bind fun getter => ih.bind fun own => ok _

end NotRepeated

namespace GeneratedRecord

variable {v : View} {g : GeneratedRecord} {slots : List Slot}

/-- Where all properties can be named, a record is refused for a repeated function exactly if the
check of the slots finds one. -/
theorem ofView_repeated_iff (made : Slot.ofProperties v.properties = .ok slots) {name : String} :
    ofView v = .error (.render v.name (.repeatedMethod name)) ↔
      Slot.repeatedFunction? slots = some name := by
  unfold ofView
  rw [made, show written v.name (.ok slots) = .ok slots from rfl]
  dsimp only [bind, Except.bind]
  cases found : Slot.repeatedFunction? slots with
  | some first =>
    constructor
    · intro failed
      have same : Failure.render v.name (.repeatedMethod first) =
          .render v.name (.repeatedMethod name) := Except.error.inj failed
      simpa using same
    · rintro ⟨⟩
      rfl
  | none =>
    refine iff_of_false ?_ nofun
    dsimp only
    exact (NotRepeated.written v.name (identifier v.name.simple)).bind
      (fun _ => (NotRepeated.written v.name (v.target.pathFrom v.name.module)).bind
        fun source => (NotRepeated.copyFunction v source slots).bind fun copy =>
          (NotRepeated.accessors v slots).bind fun own => NotRepeated.ok _) v.name name

theorem unlessNone_names (access : Access) (f : GeneratedFunction) :
    (unlessNone access f).map (·.name) = if access.isNone then [] else [f.name] := by
  unfold unlessNone
  split <;> rfl

theorem copyFunction_names {source : Path} {copy : List GeneratedFunction}
    (h : copyFunction v source slots = .ok copy) :
    copy.map (·.name) = if v.request.copyCtor.isNone then [] else ["from_source"] := by
  unfold copyFunction at h
  split at h
  · rename_i none
    obtain rfl := Except.ok.inj h
    simp [none]
  · rename_i some
    obtain ⟨values, -, h⟩ := bind_ok_iff.1 h
    obtain rfl := Except.ok.inj h
    simp [some]

theorem getterFunction_names {s : Slot} {getter : List GeneratedFunction}
    (h : getterFunction v s = .ok getter) :
    getter.map (·.name) = if s.property.hasGetter then [s.names.getter] else [] := by
  unfold getterFunction at h
  split at h
  · rename_i none
    obtain rfl := Except.ok.inj h
    simp_all
  · rename_i some
    obtain ⟨body, -, h⟩ := bind_ok_iff.1 h
    obtain rfl := Except.ok.inj h
    simp_all

theorem accessors_names {own : List GeneratedFunction} (h : accessors v slots = .ok own) :
    own.map (·.name) = slots.flatMap Slot.functions := by
  induction slots generalizing own with
  | nil =>
    obtain rfl := Except.ok.inj h
    rfl
  | cons s rest ih =>
    unfold accessors at h
    obtain ⟨getter, got, h⟩ := bind_ok_iff.1 h
    obtain ⟨others, made, h⟩ := bind_ok_iff.1 h
    obtain rfl := Except.ok.inj h
    have setter : (setterFunction s).map (·.name) =
        if s.property.hasSetter then [s.names.setter] else [] := by
      rw [setterFunction, unlessNone_names, Property.hasSetter]
      cases s.property.setter.isNone <;> rfl
    rw [List.map_append, List.map_append, getterFunction_names got, setter, ih made,
      List.flatMap_cons, Slot.functions]

/-- Beside those of the properties, a record has functions of reserved names, each once. -/
theorem Writes.names_perm (w : g.Writes v slots) :
    ∃ given, given.Sublist MemberNames.reserved ∧
      (g.functions.map (·.name)).Perm (given ++ slots.flatMap Slot.functions) := by
  obtain ⟨copy, own, copied, made, functions⟩ := w.functions
  let given (access : Access) (name : String) : List String := if access.isNone then [] else [name]
  let last : List String := if v.request.errorMethods then ["view_errors"] else []
  have own_one (access : Access) (name : String) : (given access name).Sublist [name] := by
    unfold given
    split <;> simp
  have errors : (errorsFunction v).map (·.name) = last := by
    unfold errorsFunction last
    split <;> rfl
  refine ⟨given v.request.emptyCtor "empty" ++ (given v.request.fieldsCtor "new" ++
    (given v.request.copyCtor "from_source" ++ last)), ?_, ?_⟩
  · refine (own_one _ _).append ((own_one _ _).append ((own_one _ _).append ?_))
    unfold last
    split <;> simp
  · rw [functions]
    simp only [List.map_append, emptyFunction, newFunction, unlessNone_names,
      copyFunction_names copied, accessors_names made, errors]
    simp only [List.append_assoc]
    exact .append_left _ (.append_left _ (.append_left _ List.perm_append_comm))

/-- No two functions of a record are written with one name. -/
theorem Writes.functions_nodup (w : g.Writes v slots) : (g.functions.map (·.name)).Nodup := by
  obtain ⟨given, sub, perm⟩ := w.names_perm
  obtain ⟨once, apart⟩ := Slot.repeatedFunction?_eq_none_iff.1 w.once
  rw [perm.nodup_iff, List.nodup_append]
  refine ⟨sub.nodup (by decide), once, fun f hf f' hf' same => ?_⟩
  obtain ⟨s, hs, own⟩ := List.mem_flatMap.1 hf'
  exact apart s hs f' own (same ▸ sub.subset hf)

/-- Each function of a record has an identifier of its own. -/
theorem Writes.names_nodup (w : g.Writes v slots) (plain : ∀ p ∈ v.properties, Plain p.name) :
    (g.functions.map fun f => unraw f.name).Nodup := by
  obtain ⟨given, sub, perm⟩ := w.names_perm
  have written : ∀ f ∈ g.functions.map (·.name), f = writtenWord (unraw f) := by
    intro f hf
    rcases List.mem_append.1 (perm.mem_iff.1 hf) with hf | hf
    · have plainly : ∀ w ∈ MemberNames.reserved, w = writtenWord (unraw w) := by decide
      exact plainly f (sub.subset hf)
    · obtain ⟨s, hs, own⟩ := List.mem_flatMap.1 hf
      obtain ⟨a, -, rfl⟩ := Slot.mem_functions_iff.1 own
      have shown : s.property ∈ v.properties := w.properties ▸ List.mem_map_of_mem hs
      exact MemberNames.written (plain _ shown) (w.named s hs) a
  -- a word is written in one way, so that two functions of one word would be one
  have inj := w.functions_nodup.map_on fun f hf f' hf' (same : unraw f = unraw f') => by
    rw [written f hf, written f' hf', same]
  rwa [List.map_map] at inj

end GeneratedRecord

/-- What goes on with the one word of a plain name goes on with a word. -/
theorem Plain.continues {n : String} (plain : Plain n) :
    ∀ c ∈ (unraw n).toList, Text.isIdentifierContinue c = true := by
  rcases soleWord?_isWord plain.1 with name | ⟨name, marked, -⟩
  · cases text : (unraw n).toList with
    | nil => simp
    | cons c rest =>
      rw [text] at name
      exact List.forall_mem_cons.2 ⟨Text.continue_of_start name.1, name.2⟩
  · have raw : unraw n = "r#" ++ String.ofList name := by
      have bare : (String.ofList name).toList = name := String.toList_ofList
      apply String.toList_injective
      rw [marked, String.toList_append, bare]
      rfl
    have twice := plain.2
    rw [raw, unraw_raw] at twice
    exact absurd twice.symm (raw_ne _)

/-- The functions of a plain name can be named. -/
theorem MemberNames.exists_ofName {n : String} (plain : Plain n)
    (h : (identifier? n).isSome = true) : ∃ names, ofName n = .ok names := by
  obtain ⟨field, word⟩ := Option.isSome_iff_exists.1 h
  have getter : ∃ getter, getterOf (unraw n) field = .ok getter := by
    unfold getterOf
    split
    · rename_i old
      have sole : ∀ w ∈ reserved, asIdentifier ("get_" ++ w) = .ok ("get_" ++ w) := by decide
      exact ⟨_, sole _ (by simpa using old)⟩
    · exact ⟨field, rfl⟩
  obtain ⟨getter, got⟩ := getter
  have setter := asIdentifier_ok_iff.2 ⟨rfl, soleWord?_setter plain.continues⟩
  rw [ofName, identifier?_eq_some_iff.1 word]
  dsimp only [bind, Except.bind]
  rw [got, setter]
  exact ⟨_, rfl⟩

/-- Properties whose names are plain identifiers can be named. -/
theorem Slot.exists_ofProperties {ps : List Property}
    (h : ∀ p ∈ ps, Plain p.name ∧ (identifier? p.name).isSome = true) :
    ∃ slots, ofProperties ps = .ok slots := by
  induction ps with
  | nil => exact ⟨[], rfl⟩
  | cons p rest ih =>
    obtain ⟨own, later⟩ := List.forall_mem_cons.1 h
    obtain ⟨names, named⟩ := MemberNames.exists_ofName own.1 own.2
    obtain ⟨slots, made⟩ := ih later
    exact ⟨⟨p, names⟩ :: slots, by rw [ofProperties, named, made]; rfl⟩

/-- The functions of plain properties take no reserved name. -/
theorem Slot.functions_not_reserved {s : Slot} {f : String} (plain : Plain s.property.name)
    (named : MemberNames.ofName s.property.name = .ok s.names) (hf : f ∈ s.functions) :
    f ∉ MemberNames.reserved := by
  obtain ⟨a, -, rfl⟩ := mem_functions_iff.1 hf
  cases a with
  | getter => exact MemberNames.getter_not_reserved plain named
  | setter => exact MemberNames.setter_not_reserved named

theorem Renderer.view_repeated_iff (derives : List Path) {v : View} {slots : List Slot}
    (made : Slot.ofProperties v.properties = .ok slots) {name : String} :
    (Renderer.ofDerives derives).view v = .error (.render v.name (.repeatedMethod name)) ↔
      Slot.repeatedFunction? slots = some name := by
  rw [← GeneratedRecord.ofView_repeated_iff made]
  simp only [Renderer.ofDerives]
  cases GeneratedRecord.ofView v with
  | ok g => exact iff_of_false (fun same => by cases same) (fun same => by cases same)
  | error f => constructor <;> exact fun same => congrArg Except.error (Except.error.inj same)

/-- For property names that are identifiers apart from a mark, writing a view fails for a method
that would be generated twice exactly if two accessors that are asked for have one identifier. What
is written has methods of pairwise different identifiers, also if marks of raw identifiers do not
count. -/
theorem Renderer.repeated_iff_clashes (derives : List Path) {v : View}
    (plain : ∀ p ∈ v.properties, Plain p.name ∧ (identifier? p.name).isSome = true) :
    ((∃ name, (Renderer.ofDerives derives).view v =
        .error (.render v.name (.repeatedMethod name))) ↔ v.Clashes) ∧
    ∀ tokens, (Renderer.ofDerives derives).view v = .ok tokens →
      ∃ g, GeneratedRecord.ofView v = .ok g ∧ tokens = g.tokens derives ∧
        (g.functions.map fun f => unraw f.name).Nodup := by
  refine ⟨?_, fun tokens rendered => ?_⟩
  · obtain ⟨slots, made⟩ := Slot.exists_ofProperties plain
    obtain ⟨properties, named⟩ := Slot.ofProperties_ok made
    have new : ∀ s ∈ slots, ∀ f ∈ s.functions, f ∉ MemberNames.reserved := fun s hs f hf =>
      have shown : s.property ∈ v.properties := properties ▸ List.mem_map_of_mem hs
      Slot.functions_not_reserved (plain _ shown).1 (named s hs) hf
    have check : Slot.repeatedFunction? slots = none ↔ ¬ v.Clashes := by
      rw [Slot.repeatedFunction?_eq_none_iff, View.not_clashes_iff properties named]
      exact and_iff_left new
    simp only [Renderer.view_repeated_iff derives made]
    rw [← not_iff_not, ← check]
    cases Slot.repeatedFunction? slots <;> simp
  · obtain ⟨g, made, rfl⟩ := map_ok_iff.1 rendered
    obtain ⟨slots, w⟩ := GeneratedRecord.ofView_writes made
    exact ⟨g, made, rfl, w.names_nodup fun p hp => (plain p hp).1⟩

def readable (names : List String) : View where
  name := ⟨["crate"], "RowView"⟩
  target := ⟨["crate"], "Row"⟩
  config := ⟨["crate"], "Row"⟩
  request := {}
  properties := names.map fun name =>
    Property.ofMember (.field name (.path (.ofNames ["String"]))) .everywhere .none

/-- The getter of `new` cannot be called so, and the name it is given is that of another getter.
Beside a keyword there is room for it. -/
theorem renamed_getter_clashes :
    (∃ name, (Renderer.ofDerives []).view (readable ["new", "get_new"]) =
      .error (.render (readable ["new", "get_new"]).name (.repeatedMethod name))) ∧
    ∃ g, GeneratedRecord.ofView (readable ["new", "type"]) = .ok g ∧
      g.functions.map (·.name) =
        ["empty", "new", "from_source", "get_new", "r#type", "view_errors"] ∧
      (g.functions.map fun f => unraw f.name).Nodup := by
  have both : (readable ["new", "get_new"]).Clashes :=
    ⟨0, .getter, 1, .getter, "get_new", by decide,
      ⟨_, _, rfl, by decide, rfl, rfl⟩, ⟨_, _, rfl, by decide, rfl, rfl⟩⟩
  have clash := (Renderer.repeated_iff_clashes [] (v := readable ["new", "get_new"])
    (by decide)).1.2 both
  obtain ⟨tokens, rendered⟩ :
      ∃ tokens, (Renderer.ofDerives []).view (readable ["new", "type"]) = .ok tokens := ⟨_, rfl⟩
  obtain ⟨g, made, -, apart⟩ := (Renderer.repeated_iff_clashes [] (v := readable ["new", "type"])
    (by decide)).2 tokens rendered
  have names : (GeneratedRecord.ofView (readable ["new", "type"])).toOption.map
      (fun g => g.functions.map (·.name)) =
        some ["empty", "new", "from_source", "get_new", "r#type", "view_errors"] := by decide
  rw [made] at names
  exact ⟨clash, g, made, Option.some.inj names, apart⟩

end RecordViews
