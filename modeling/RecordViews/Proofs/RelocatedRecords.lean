import RecordViews.Proofs.RelocatedViews

/-! What is written for a view or a meta type in another module: the same record, but for the texts
that quote full names. -/

namespace RecordViews

open Grammar (Ty Path)

variable {S T : Scope}

def Slot.relocate (s : Slot) (T : Scope) : Slot :=
  { s with property := s.property.relocate T }

namespace Slot

theorem ofProperties_relocate (ps : List Property) (T : Scope) :
    ofProperties (ps.map (·.relocate T)) =
      (ofProperties ps).map (List.map (·.relocate T)) := by
  induction ps with
  | nil => rfl
  | cons p rest ih =>
    have named : (p.relocate T).name = p.name := rfl
    rw [List.map_cons, ofProperties, ofProperties, named, ih]
    cases MemberNames.ofName p.name with
    | error f => rfl
    | ok names => cases ofProperties rest <;> rfl

theorem placed_of_ofProperties {ps : List Property} (h : ∀ p ∈ ps, p.relocate S = p)
    {slots : List Slot} (made : ofProperties ps = .ok slots) : ∀ s ∈ slots, s.relocate S = s := by
  have same := ofProperties_relocate ps S
  rw [map_eq_self_iff.2 h, made] at same
  exact map_eq_self_iff.1 (Except.ok.inj same).symm

theorem repeatedFunction?_relocate (slots : List Slot) (T : Scope) :
    repeatedFunction? (slots.map (·.relocate T)) = repeatedFunction? slots := by
  rw [repeatedFunction?, repeatedFunction?, List.flatMap_map]
  rfl

end Slot

theorem Extractor.render_relocate {e : Extractor} (he : e.relocate S = e) (T : Scope)
    (source : Tokens) : (e.relocate T).render T source = e.render S source := by
  cases e with
  | direct d => rfl
  | function s =>
    have placed : s.container.relocate S = s.container := by
      injection he with he
      exact congrArg Signature.container he
    simp only [render, relocate, Signature.relocate, TypeName.pathFrom_relocate placed]

def View.relocate (v : View) (T : Scope) : View :=
  { v with
    name := v.name.relocate T
    target := v.target.relocate T
    config := v.config.relocate T
    request := v.request.relocate T
    properties := v.properties.map (·.relocate T) }

/-- The view and all it refers to are in the module. -/
structure View.In (v : View) (S : Scope) : Prop where
  name : v.name.relocate S = v.name
  target : v.target.relocate S = v.target
  properties : ∀ p ∈ v.properties, p.relocate S = p

namespace Property

theorem extractor?_relocate (p : Property) (T : Scope) :
    (p.relocate T).extractor? = p.extractor?.map (·.relocate T) := by
  unfold extractor? relocate
  cases p.explicit with
  | some e => rfl
  | none => cases p.direct <;> rfl

theorem extractor_placed {p : Property} (hp : p.relocate S = p) {e : Extractor}
    (given : p.extractor? = some e) : e.relocate S = e := by
  have same := p.extractor?_relocate S
  rw [hp, given] at same
  exact (Option.some.inj same).symm

end Property

namespace GeneratedRecord

variable {v : View}

theorem written_together {α β : Type} {rel : α → β → Prop} {x : Except NameFault α}
    {y : Except NameFault β} (h : Together Eq rel x y) (n m : TypeName) :
    Together Failure.Alike rel (written n x) (written m y) := by
  cases h with
  | @fail f _ same =>
    subst same
    cases f <;> exact .fail rfl
  | give h => exact .give h

theorem same_together {α : Type} {x y : Except NameFault α} (h : y = x) (n m : TypeName) :
    Together Failure.Alike Eq (written n x) (written m y) := by
  subst h
  exact written_together (.refl fun _ => rfl) n m

theorem valueOf_together (hv : v.In S) {p : Property} (hp : p.relocate S = p) (T : Scope) :
    Together Failure.Alike Eq (valueOf v p) (valueOf (v.relocate T) (p.relocate T)) := by
  have module : v.name.module = S := TypeName.relocate_eq_self_iff.1 hv.name
  have view : p.view.map (·.relocate S) = p.view := congrArg Property.view hp
  unfold valueOf
  rw [p.extractor?_relocate]
  cases given : p.extractor? with
  | none => exact .fail rfl
  | some e =>
    have placed := Property.extractor_placed hp given
    have rendered := Extractor.render_relocate placed T [.ident "source"]
    rw [← module] at rendered
    refine (same_together rendered _ _).bind fun extracted _ same => ?_
    subst same
    dsimp only [Property.relocate]
    cases nested : p.view with
    | none => exact .give rfl
    | some n =>
      rw [nested] at view
      have named := TypeName.pathFrom_relocate (Option.some.inj view) T
      rw [← module] at named
      exact (same_together named _ _).bind fun path _ same => .give (by rw [same])

variable {slots : List Slot}

theorem property_of_slot {s : Slot} (hs : s.relocate S = s) : s.property.relocate S = s.property :=
  congrArg Slot.property hs

theorem copyFunction_together (hv : v.In S) (hs : ∀ s ∈ slots, s.relocate S = s) (source : Path)
    (T : Scope) :
    Together Failure.Alike Eq (copyFunction v source slots)
      (copyFunction (v.relocate T) source (slots.map (·.relocate T))) := by
  unfold copyFunction
  refine .ite Iff.rfl (.give rfl) ?_
  refine (Together.mapM fun s hs' => ?_).bind fun values _ same => .give (by rw [same]; rfl)
  exact (valueOf_together hv (property_of_slot (hs s hs')) T).map fun _ _ same => by rw [same]; rfl

theorem getterBody_together (hv : v.In S) {s : Slot} (hs : s.relocate S = s) (T : Scope) :
    Together Failure.Alike Eq (getterBody v s) (getterBody (v.relocate T) (s.relocate T)) := by
  have module : v.name.module = S := TypeName.relocate_eq_self_iff.1 hv.name
  have explicit : s.property.explicit.map (·.relocate S) = s.property.explicit :=
    congrArg Property.explicit (property_of_slot hs)
  unfold getterBody
  dsimp only [Slot.relocate, Property.relocate]
  cases given : s.property.explicit with
  | none => exact .give rfl
  | some e =>
    rw [given] at explicit
    have rendered := Extractor.render_relocate (Option.some.inj explicit) T []
    have dynamic : (e.relocate T).isDynamic = e.isDynamic := by cases e <;> rfl
    rw [← module] at rendered
    rw [Option.map_some, Option.filter_some, Option.filter_some, dynamic]
    cases e.isDynamic with
    | false => exact .give rfl
    | true => exact (same_together rendered _ _).map fun _ _ same => by rw [same]

theorem getterFunction_together (hv : v.In S) {s : Slot} (hs : s.relocate S = s) (T : Scope) :
    Together Failure.Alike Eq (getterFunction v s)
      (getterFunction (v.relocate T) (s.relocate T)) := by
  unfold getterFunction
  refine .ite Iff.rfl (.give rfl) ?_
  exact (getterBody_together hv hs T).bind fun body _ same => .give (by rw [same]; rfl)

theorem accessors_together (hv : v.In S) (hs : ∀ s ∈ slots, s.relocate S = s) (T : Scope) :
    Together Failure.Alike Eq (accessors v slots)
      (accessors (v.relocate T) (slots.map (·.relocate T))) := by
  induction slots with
  | nil => exact .give rfl
  | cons s rest ih =>
    obtain ⟨first, later⟩ := List.forall_mem_cons.1 hs
    rw [List.map_cons, accessors, accessors]
    refine (getterFunction_together hv first T).bind fun getter _ same => ?_
    exact (ih later).bind fun others _ same' => .give (by rw [same, same']; rfl)

theorem slots_together (hv : v.In S) (T : Scope) :
    Together Eq (fun slots slots' => (∀ s ∈ slots, s.relocate S = s) ∧
        slots' = slots.map (·.relocate T))
      (Slot.ofProperties v.properties) (Slot.ofProperties (v.relocate T).properties) := by
  have moved := Slot.ofProperties_relocate v.properties T
  rw [show (v.relocate T).properties = v.properties.map (·.relocate T) from rfl, moved]
  cases made : Slot.ofProperties v.properties with
  | error name => exact .fail rfl
  | ok slots => exact .give ⟨Slot.placed_of_ofProperties hv.properties made, rfl⟩

/-- The record of a view that has moved is the record of the view, but for the name that its comment
quotes. -/
theorem ofView_together (hv : v.In S) (T : Scope) :
    Together Failure.Alike (fun g g' => g' = { g with sourceName := g.sourceName.relocate T })
      (ofView v) (ofView (v.relocate T)) := by
  have module : v.name.module = S := TypeName.relocate_eq_self_iff.1 hv.name
  unfold ofView
  refine (written_together (slots_together hv T) _ _).bind fun slots slots' both => ?_
  obtain ⟨placed, rfl⟩ := both
  rw [Slot.repeatedFunction?_relocate]
  cases Slot.repeatedFunction? slots with
  | some name => exact .fail rfl
  | none =>
    dsimp only
    have named : (v.relocate T).name.simple = v.name.simple := rfl
    rw [named]
    refine (same_together rfl _ _).bind fun name _ same => ?_
    subst same
    have target := TypeName.pathFrom_relocate hv.target T
    rw [← module] at target
    refine (same_together target _ _).bind fun source _ same => ?_
    subst same
    refine (copyFunction_together hv placed source T).bind fun copy _ same => ?_
    subst same
    refine (accessors_together hv placed T).bind fun own _ same => ?_
    subst same
    have fields : fieldTypes (slots.map (·.relocate T)) = fieldTypes slots := by
      rw [fieldTypes, List.map_map]
      rfl
    have empty : emptyFunction (v.relocate T) (slots.map (·.relocate T)) =
        emptyFunction v slots := by
      rw [emptyFunction, List.map_map]
      rfl
    have new : newFunction (v.relocate T) (slots.map (·.relocate T)) = newFunction v slots := by
      rw [newFunction, fields]
      rfl
    rw [fields, empty, new]
    exact .give rfl

end GeneratedRecord

def FunctionBody.withoutTexts : FunctionBody → FunctionBody
  | .errors messages => .errors (messages.map fun _ => "")
  | body => body

def GeneratedFunction.withoutTexts (f : GeneratedFunction) : GeneratedFunction :=
  { f with body := f.body.withoutTexts }

namespace GeneratedRecord

/-- The record with the simple name of its source, the messages left out. -/
def withoutTexts (g : GeneratedRecord) : GeneratedRecord :=
  { g with
    sourceName := g.sourceName.relocate []
    functions := g.functions.map GeneratedFunction.withoutTexts }

theorem errorsFunction_withoutTexts {v v' : View}
    (asked : v'.request.errorMethods = v.request.errorMethods)
    (same : v'.errors.length = v.errors.length) :
    (errorsFunction v').map (·.withoutTexts) = (errorsFunction v).map (·.withoutTexts) := by
  unfold errorsFunction
  rw [asked]
  split
  · simp [GeneratedFunction.withoutTexts, FunctionBody.withoutTexts, List.map_const', same]
  · rfl

/-- A view that has moved, with other messages, is written as the same record. -/
theorem ofView_withoutTexts {v : View} (hv : v.In S) (T : Scope) {errors : List String}
    (same : errors.length = v.errors.length) :
    Together Failure.Alike (fun g g' => g'.withoutTexts = g.withoutTexts) (ofView v)
      (ofView { v.relocate T with errors }) := by
  have other : (v.relocate T).Resembles { v.relocate T with errors } :=
    ⟨v.request.excludes, errors, rfl⟩
  have resembles := ofView_resembles other
  have moved := ofView_together hv T
  generalize ofView v = x at moved
  generalize ofView (v.relocate T) = y at moved resembles
  cases moved with
  | fail same =>
    rw [resembles.failing _ rfl]
    exact .fail same
  | give moved =>
    obtain ⟨own, functions, made⟩ := resembles.made _ rfl
    rw [made]
    have blank : (errorsFunction { v.relocate T with errors }).map (·.withoutTexts) =
        (errorsFunction (v.relocate T)).map (·.withoutTexts) :=
      errorsFunction_withoutTexts rfl same
    subst moved
    dsimp only at functions
    refine .give ?_
    simp only [withoutTexts, functions, List.map_append, blank, TypeName.relocate_relocate]

end GeneratedRecord

def GeneratedConstants.withoutTexts (g : GeneratedConstants) : GeneratedConstants :=
  { g with sourceName := g.sourceName.relocate [] }

def MetaType.relocate (m : MetaType) (T : Scope) : MetaType :=
  { m with name := m.name.relocate T, target := m.target.relocate T }

theorem GeneratedConstants.constantsOf_together (view view' : TypeName) (seen members : List String) :
    Together Failure.Alike Eq (constantsOf view seen members) (constantsOf view' seen members) := by
  induction members generalizing seen with
  | nil => exact .give rfl
  | cons member rest ih =>
    unfold constantsOf
    refine .ite Iff.rfl (.fail rfl) ?_
    refine (GeneratedRecord.same_together rfl _ _).bind fun name _ same => ?_
    exact (ih _).bind fun constants _ same' => .give (by rw [same, same'])

theorem GeneratedConstants.ofMetaType_together (m : MetaType) (T : Scope) :
    Together Failure.Alike (fun g g' => g'.withoutTexts = g.withoutTexts) (ofMetaType m)
      (ofMetaType (m.relocate T)) := by
  unfold ofMetaType
  dsimp only [MetaType.relocate, TypeName.relocate_simple]
  refine (GeneratedRecord.same_together rfl _ _).bind fun name _ same => ?_
  subst same
  refine (constantsOf_together _ _ [] m.members).bind fun constants _ same => ?_
  subst same
  exact .give rfl

end RecordViews
