import Mathlib.Logic.Function.Basic
import RecordViews.Proofs.GeneratedItems
import RecordViews.Proofs.MethodNames

/-! What the functions of a generated record do to its values. A call is read off the body of the
function that is found by its name, and only if its fields and types are those that the record
declares: `makes?`, `gives?` and `assigns?` are what the constructor from values, a getter and a
setter come to. Fields, parameters, initialisers and accessors are written by templates of their
own; that the values nevertheless stay apart is the last theorem. -/

namespace RecordViews

open Grammar (Ty Path)

/-- The values of a record, by field; what is no field has none. -/
abbrev FieldValues (V : Type) := String → Option V

variable {V : Type}

namespace FunctionBody

/-- What a call with these arguments makes. The parameters are the fields that are initialised, each
from the parameter of its name. -/
def makes? (body : FunctionBody) (fields : List (String × Ty)) (args : List V) :
    Option (FieldValues V) :=
  match body with
  | .values params =>
    if params.Perm fields ∧ args.length = params.length then
      some fun field => ((params.map (·.1)).zip args).lookup field
    else none
  | _ => none

/-- What a call on a record gives. An expression that does not look at the record has one value. -/
def gives? (body : FunctionBody) (fields : List (String × Ty)) (compute : Tokens → V)
    (values : FieldValues V) : Option V :=
  match body with
  | .reads field ty => if (field, ty) ∈ fields then values field else none
  | .computes _ value => some (compute value)
  | _ => none

def assigns? (body : FunctionBody) (fields : List (String × Ty)) (values : FieldValues V) (x : V) :
    Option (FieldValues V) :=
  match body with
  | .assigns field ty =>
    if (field, ty) ∈ fields then some (Function.update values field (some x)) else none
  | _ => none

end FunctionBody

namespace GeneratedRecord

/-- These are values for the fields of the record. -/
def Holds (g : GeneratedRecord) (values : FieldValues V) : Prop :=
  ∀ field, (values field).isSome ↔ field ∈ g.fields.map (·.1)

def function? (g : GeneratedRecord) (name : String) : Option GeneratedFunction :=
  g.functions.find? (·.name == name)

def construct? (g : GeneratedRecord) (name : String) (args : List V) : Option (FieldValues V) :=
  (g.function? name).bind fun f => f.body.makes? g.fields args

def accessor? (g : GeneratedRecord) (a : Accessor) (p : Property) : Option GeneratedFunction :=
  (MemberNames.ofName p.name).toOption.bind fun names => g.function? (a.identifier names)

def get? (g : GeneratedRecord) (compute : Tokens → V) (values : FieldValues V) (p : Property) :
    Option V :=
  (g.accessor? .getter p).bind fun f => f.body.gives? g.fields compute values

def set? (g : GeneratedRecord) (values : FieldValues V) (p : Property) (x : V) :
    Option (FieldValues V) :=
  (g.accessor? .setter p).bind fun f => f.body.assigns? g.fields values x

variable {v : View} {g : GeneratedRecord} {slots : List Slot} {s : Slot}

theorem function?_eq {f : GeneratedFunction} (once : (g.functions.map (·.name)).Nodup)
    (hf : f ∈ g.functions) : g.function? f.name = some f := by
  cases found : g.function? f.name with
  | none => exact absurd (List.find?_eq_none.1 found f hf) (by simp)
  | some f' =>
    have same : f'.name = f.name := by simpa using List.find?_some found
    rw [List.inj_on_of_nodup_map once (List.mem_of_find?_eq_some found) hf same]

theorem accessors_mem {own : List GeneratedFunction} (made : accessors v slots = .ok own)
    (hs : s ∈ slots) :
    ∃ getter, getterFunction v s = .ok getter ∧ ∀ f ∈ getter ++ setterFunction s, f ∈ own := by
  induction slots generalizing own with
  | nil => exact absurd hs List.not_mem_nil
  | cons first rest ih =>
    unfold accessors at made
    obtain ⟨getter, got, made⟩ := bind_ok_iff.1 made
    obtain ⟨others, later, made⟩ := bind_ok_iff.1 made
    obtain rfl := Except.ok.inj made
    rcases List.mem_cons.1 hs with rfl | hs
    · exact ⟨getter, got, fun f hf => List.mem_append_left _ hf⟩
    · obtain ⟨getter', got', inside⟩ := ih later hs
      exact ⟨getter', got', fun f hf => List.mem_append_right _ (inside f hf)⟩

namespace Writes

theorem accessors_mem (w : g.Writes v slots) (hs : s ∈ slots) :
    ∃ getter, getterFunction v s = .ok getter ∧
      ∀ f ∈ getter ++ setterFunction s, f ∈ g.functions := by
  obtain ⟨copy, own, -, made, functions⟩ := w.functions
  obtain ⟨getter, got, inside⟩ := GeneratedRecord.accessors_mem made hs
  refine ⟨getter, got, fun f hf => ?_⟩
  rw [functions]
  exact List.mem_append_left _ (List.mem_append_right _ (inside f hf))

theorem field_mem (w : g.Writes v slots) (hs : s ∈ slots) :
    (s.names.field, s.property.ty) ∈ g.fields := by
  rw [w.fields]
  exact List.mem_map_of_mem hs

theorem new_mem (w : g.Writes v slots) (asked : v.request.fieldsCtor ≠ .none) :
    { name := "new", access := v.request.fieldsCtor, body := .values g.fields } ∈ g.functions := by
  obtain ⟨copy, own, -, -, functions⟩ := w.functions
  have new : newFunction v slots =
      [{ name := "new", access := v.request.fieldsCtor, body := .values g.fields }] := by
    rw [newFunction, unlessNone, if_neg, w.fields]
    cases given : v.request.fieldsCtor <;> simp_all [Access.isNone]
  rw [functions, new]
  simp

theorem accessor?_eq (w : g.Writes v slots) (hs : s ∈ slots) (a : Accessor) :
    g.accessor? a s.property = g.function? (a.identifier s.names) := by
  rw [accessor?, w.named s hs, Except.toOption, Option.bind_some]

/-- The setter of a property assigns its field. -/
theorem setter_eq (w : g.Writes v slots) (hs : s ∈ slots) (has : s.property.hasSetter = true) :
    ∃ f, g.accessor? .setter s.property = some f ∧
      f.body = .assigns s.names.field s.property.ty := by
  obtain ⟨getter, -, inside⟩ := w.accessors_mem hs
  have made : setterFunction s = [{
      name := s.names.setter, access := s.property.setter
      body := .assigns s.names.field s.property.ty }] := by
    rw [setterFunction, unlessNone, if_neg (by simpa [Property.hasSetter] using has)]
  rw [made] at inside
  have called := function?_eq w.functions_nodup
    (inside _ (List.mem_append_right _ List.mem_cons_self))
  exact ⟨_, (w.accessor?_eq hs .setter).trans called, rfl⟩

/-- The getter of a property has the body that was made for it. -/
theorem getter_eq (w : g.Writes v slots) (hs : s ∈ slots) (has : s.property.hasGetter = true) :
    ∃ f, g.accessor? .getter s.property = some f ∧ getterBody v s = .ok f.body := by
  obtain ⟨getter, got, inside⟩ := w.accessors_mem hs
  unfold getterFunction at got
  rw [has] at got
  obtain ⟨body, made, got⟩ := bind_ok_iff.1 got
  obtain rfl := Except.ok.inj got
  have called := function?_eq w.functions_nodup
    (inside _ (List.mem_append_left _ List.mem_cons_self))
  exact ⟨_, (w.accessor?_eq hs .getter).trans called, made⟩

theorem getter_reads (w : g.Writes v slots) (hs : s ∈ slots) (has : s.property.hasGetter = true)
    (stored : s.property.isDynamic = false) :
    ∃ f, g.accessor? .getter s.property = some f ∧
      f.body = .reads s.names.field s.property.ty := by
  obtain ⟨f, found, made⟩ := w.getter_eq hs has
  have read : s.property.explicit.filter Extractor.isDynamic = none := by
    cases given : s.property.explicit with
    | none => rfl
    | some e =>
      rw [Property.isDynamic, given, Option.any_some] at stored
      rw [Option.filter_some, if_neg (by simp [stored])]
  rw [getterBody, read] at made
  exact ⟨f, found, (Except.ok.inj made).symm⟩

theorem getter_computes (w : g.Writes v slots) (hs : s ∈ slots) (has : s.property.hasGetter = true)
    (computed : s.property.isDynamic = true) :
    ∃ f value, g.accessor? .getter s.property = some f ∧
      f.body = .computes s.property.ty value := by
  obtain ⟨f, found, made⟩ := w.getter_eq hs has
  obtain ⟨e, given, dynamic⟩ := (Option.any_eq_true _ _).1 computed
  rw [getterBody, given, Option.filter_some, if_pos dynamic] at made
  obtain ⟨value, -, same⟩ := map_ok_iff.1 made
  exact ⟨f, value, found, same.symm⟩

variable {compute : Tokens → V} {values : FieldValues V}

theorem get?_stored (w : g.Writes v slots) (hs : s ∈ slots) (has : s.property.hasGetter = true)
    (stored : s.property.isDynamic = false) :
    g.get? compute values s.property = values s.names.field := by
  obtain ⟨f, found, body⟩ := w.getter_reads hs has stored
  rw [get?, found, Option.bind_some, body, FunctionBody.gives?, if_pos (w.field_mem hs)]

/-- A getter that computes gives the same whatever the record holds. -/
theorem get?_computed (w : g.Writes v slots) (compute : Tokens → V) (hs : s ∈ slots)
    (has : s.property.hasGetter = true) (computed : s.property.isDynamic = true) :
    ∃ value, ∀ values : FieldValues V,
      g.get? compute values s.property = some (compute value) := by
  obtain ⟨f, value, found, body⟩ := w.getter_computes hs has computed
  refine ⟨value, fun values => ?_⟩
  rw [get?, found, Option.bind_some, body, FunctionBody.gives?]

theorem set?_eq (w : g.Writes v slots) (hs : s ∈ slots) (has : s.property.hasSetter = true)
    (values : FieldValues V) (x : V) :
    g.set? values s.property x = some (Function.update values s.names.field (some x)) := by
  obtain ⟨f, found, body⟩ := w.setter_eq hs has
  rw [set?, found, Option.bind_some, body, FunctionBody.assigns?, if_pos (w.field_mem hs)]

theorem construct?_new (w : g.Writes v slots) (asked : v.request.fieldsCtor ≠ .none) {args : List V}
    (length : args.length = g.fields.length) :
    g.construct? "new" args = some fun field => ((g.fields.map (·.1)).zip args).lookup field := by
  have called := function?_eq w.functions_nodup (w.new_mem asked)
  rw [construct?, called, Option.bind_some, FunctionBody.makes?, if_pos ⟨.refl _, length⟩]

end Writes

theorem Holds.update (h : g.Holds values) {field : String} (inside : field ∈ g.fields.map (·.1))
    (x : V) : g.Holds (Function.update values field (some x)) := by
  intro other
  by_cases same : other = field
  · subst same
    simp [inside]
  · rw [Function.update_of_ne same]
    exact h other

end GeneratedRecord

/-- Each argument is found under its own name. -/
theorem lookup_zip {names : List String} {args : List V} (once : names.Nodup) {k : Nat}
    {name : String} {x : V} (named : names[k]? = some name) (passed : args[k]? = some x) :
    (names.zip args).lookup name = some x := by
  induction names generalizing args k with
  | nil => cases named
  | cons first rest ih =>
    obtain ⟨new, once⟩ := List.nodup_cons.1 once
    cases args with
    | nil => cases passed
    | cons y others =>
      cases k with
      | zero =>
        obtain rfl := Option.some.inj named
        obtain rfl := Option.some.inj passed
        simp
      | succ k =>
        have ne : name ≠ first := fun same => new (same ▸ List.mem_of_getElem? named)
        rw [List.zip_cons_cons, List.lookup_cons, beq_false_of_ne ne]
        exact ih once named passed

theorem lookup_zip_isSome {names : List String} {args : List V}
    (length : args.length = names.length) {name : String} :
    ((names.zip args).lookup name).isSome = true ↔ name ∈ names := by
  have keys : (names.zip args).map (·.1) = names := List.map_fst_zip (Nat.le_of_eq length.symm)
  rw [List.lookup_isSome_iff]
  constructor
  · rintro ⟨p, hp, same⟩
    rw [← keys, eq_of_beq same]
    exact List.mem_map_of_mem hp
  · intro inside
    rw [← keys] at inside
    obtain ⟨p, hp, rfl⟩ := List.mem_map.1 inside
    exact ⟨p, hp, beq_self_eq_true _⟩

namespace GeneratedRecord.Writes

variable {v : View} {g : GeneratedRecord} {slots : List Slot} {compute : Tokens → V}

theorem slot_at (w : g.Writes v slots) {k : Nat} {p : Property} (at_k : v.properties[k]? = some p) :
    ∃ s, slots[k]? = some s ∧ s.property = p := by
  rw [← w.properties, List.getElem?_map, Option.map_eq_some_iff] at at_k
  exact at_k

theorem field_at (w : g.Writes v slots) {k : Nat} {s : Slot} (at_k : slots[k]? = some s) :
    (g.fields.map (·.1))[k]? = some s.names.field := by
  rw [w.fields_eq, List.getElem?_map, at_k, Option.map_some]

theorem position_unique (w : g.Writes v slots) (once : (g.fields.map (·.1)).Nodup) {i j : Nat}
    {s t : Slot} (at_i : slots[i]? = some s) (at_j : slots[j]? = some t)
    (same : s.names.field = t.names.field) : i = j := by
  have inside := (List.getElem?_eq_some_iff.1 (w.field_at at_i)).1
  refine (List.getElem?_inj inside once).1 ?_
  rw [w.field_at at_i, w.field_at at_j, same]

theorem field_inside (w : g.Writes v slots) {s : Slot} (hs : s ∈ slots) :
    s.names.field ∈ g.fields.map (·.1) :=
  List.mem_map_of_mem (w.field_mem hs)

/-- A getter gives something on every record, and it has given it before unless the field that it
reads was assigned since. -/
theorem get?_update (w : g.Writes v slots) {t : Slot} (ht : t ∈ slots)
    (has : t.property.hasGetter = true) {field : String} (other : t.names.field ≠ field)
    {values : FieldValues V} (held : g.Holds values) (x : V) :
    (g.get? compute values t.property).isSome = true ∧
      g.get? compute (Function.update values field (some x)) t.property =
        g.get? compute values t.property := by
  cases dynamic : t.property.isDynamic with
  | false =>
    rw [w.get?_stored ht has dynamic, w.get?_stored ht has dynamic, Function.update_of_ne other]
    exact ⟨(held _).2 (w.field_inside ht), rfl⟩
  | true =>
    obtain ⟨value, computed⟩ := w.get?_computed compute ht has dynamic
    rw [computed, computed]
    exact ⟨rfl, rfl⟩

end GeneratedRecord.Writes

/-- If all fields of a rendered record have different identifiers, its constructor from values gives
every property the argument at its own position, so that this is what its getter gives unless it
computes another value. A setter makes the getter of its own property give the value assigned, and
what the getters of all other properties give stays. The fields and functions are those that are
printed. -/
theorem Renderer.rendered_values {derives : List Path} {v : View} {tokens : Tokens}
    (rendered : (Renderer.ofDerives derives).view v = .ok tokens)
    (asked : v.request.fieldsCtor ≠ .none)
    (distinct : (v.properties.map (identifier? ·.name)).Nodup) :
    ∃ g, GeneratedRecord.ofView v = .ok g ∧ tokens = g.tokens derives ∧ g.Printed derives tokens ∧
      ∀ (V : Type) (compute : Tokens → V),
        (∀ args : List V, args.length = v.properties.length →
          ∃ values, g.construct? "new" args = some values ∧ g.Holds values ∧
            ∀ (k : Nat) (p : Property) (x : V), v.properties[k]? = some p → args[k]? = some x →
              p.hasGetter = true → p.isDynamic = false → g.get? compute values p = some x) ∧
        ∀ values, g.Holds values → ∀ (k : Nat) (p : Property) (x : V),
          v.properties[k]? = some p → p.hasSetter = true →
          ∃ values', g.set? values p x = some values' ∧ g.Holds values' ∧
            (p.hasGetter = true → p.isDynamic = false → g.get? compute values' p = some x) ∧
            ∀ (j : Nat) (q : Property), j ≠ k → v.properties[j]? = some q → q.hasGetter = true →
              (g.get? compute values q).isSome = true ∧
                g.get? compute values' q = g.get? compute values q := by
  obtain ⟨g, made, rfl⟩ := map_ok_iff.1 rendered
  obtain ⟨slots, w⟩ := GeneratedRecord.ofView_writes made
  have once : (g.fields.map (·.1)).Nodup := by
    rw [← w.identifiers] at distinct
    exact List.Nodup.of_map some (by rwa [List.map_map])
  refine ⟨g, made, rfl, g.printed derives, fun V compute => ⟨fun args length => ?_, ?_⟩⟩
  · have length : args.length = g.fields.length := by
      rw [length, ← w.properties, w.fields, GeneratedRecord.fieldTypes, List.length_map,
        List.length_map]
    refine ⟨_, w.construct?_new asked length, fun field => ?_, ?_⟩
    · rw [lookup_zip_isSome (by rw [List.length_map, length])]
    · intro k p x at_k passed has stored
      obtain ⟨s, slot, rfl⟩ := w.slot_at at_k
      rw [w.get?_stored (List.mem_of_getElem? slot) has stored]
      exact lookup_zip once (w.field_at slot) passed
  · intro values held k p x at_k has
    obtain ⟨s, slot, rfl⟩ := w.slot_at at_k
    have hs := List.mem_of_getElem? slot
    refine ⟨_, w.set?_eq hs has values x, held.update (w.field_inside hs) x, ?_, ?_⟩
    · intro has stored
      rw [w.get?_stored hs has stored, Function.update_self]
    · intro j q ne at_j has
      obtain ⟨t, other, rfl⟩ := w.slot_at at_j
      refine w.get?_update (List.mem_of_getElem? other) has (fun same => ne ?_) held x
      exact w.position_unique once other slot same

/-- A view with a reserved name, a keyword and a label that is computed. -/
def labelled : View where
  name := ⟨["crate"], "RowView"⟩
  target := ⟨["crate"], "Row"⟩
  config := ⟨["crate"], "Row"⟩
  request := {}
  properties := [
    .ofMember (.field "new" (.path (.ofNames ["String"]))) .everywhere .everywhere,
    .ofMember (.field "type" (.path (.ofNames ["String"]))) .everywhere .everywhere,
    .computed "label" {
      container := ⟨["crate"], "Row"⟩
      name := "label"
      params := []
      result := .path (.ofNames ["String"]) } .everywhere]

/-- The constructor takes a value for the label too, which no getter gives. -/
theorem labelled_values : ∃ g, GeneratedRecord.ofView labelled = .ok g ∧
    ∃ values values' : FieldValues Nat, g.construct? "new" [1, 2, 3] = some values ∧
      ∃ new type, labelled.properties[0]? = some new ∧ labelled.properties[1]? = some type ∧
        g.get? (fun _ => 0) values new = some 1 ∧ g.get? (fun _ => 0) values type = some 2 ∧
        g.set? values type 4 = some values' ∧
        g.get? (fun _ => 0) values' new = some 1 ∧ g.get? (fun _ => 0) values' type = some 4 := by
  obtain ⟨tokens, rendered⟩ : ∃ tokens, (Renderer.ofDerives []).view labelled = .ok tokens :=
    ⟨_, rfl⟩
  obtain ⟨g, made, -, -, calls⟩ := Renderer.rendered_values rendered (by decide) (by decide)
  obtain ⟨constructs, assigns⟩ := calls Nat fun _ => 0
  obtain ⟨values, constructed, held, given⟩ := constructs [1, 2, 3] rfl
  obtain ⟨values', assigned, -, own, others⟩ := assigns values held 1 _ 4 rfl rfl
  have first := given 0 _ 1 rfl rfl rfl rfl
  have kept := (others 0 _ (by decide) rfl rfl).2.trans first
  exact ⟨g, made, values, values', constructed, _, _, rfl, rfl, first,
    given 1 _ 2 rfl rfl rfl rfl, assigned, kept, own rfl rfl⟩

end RecordViews
