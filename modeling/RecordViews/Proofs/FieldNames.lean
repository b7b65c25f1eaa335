import Mathlib.Data.List.Nodup
import RecordViews.Proofs.Histories
import RecordViews.Proofs.Spelling
import RecordViews.View.Constants

/-! The fields of a generated record. Resolving keeps the property names of a view apart as texts,
and rendering keeps the functions apart, but a field is the identifier of a property name.
`GeneratedRecord.Writes` says once what the record of a view is made of; from it follows which
fields differ, namely those with a getter, those with a setter, and all of them unless a property
goes by the name of another one with the mark of a raw identifier. -/

namespace RecordViews

open Grammar (Path Ty)

namespace MemberNames

variable {n m : String} {names names' : MemberNames}

theorem ofName_ok (h : ofName n = .ok names) :
    identifier? n = some names.field ∧
      names.getter = (if reserved.contains (unraw n) then "get_" ++ unraw n else names.field) ∧
      names.setter = "set_" ++ unraw n := by
  obtain ⟨field, word, h⟩ := bind_ok_iff.1 h
  obtain ⟨getter, got, h⟩ := bind_ok_iff.1 h
  obtain ⟨setter, set, h⟩ := bind_ok_iff.1 h
  obtain rfl := Except.ok.inj h
  refine ⟨identifier?_eq_some_iff.2 word, ?_, (asIdentifier_ok_iff.1 set).1⟩
  unfold getterOf at got
  split at got
  · rename_i old
    rw [if_pos old]
    exact (asIdentifier_ok_iff.1 got).1
  · rename_i new
    rw [if_neg new]
    exact (Except.ok.inj got).symm

/-- The names of functions that every view may have are written as they are. -/
theorem identifier?_of_reserved (h : unraw n ∈ reserved) : identifier? n = some (unraw n) := by
  have own : ∀ word ∈ reserved, unraw word = word ∧ identifier? word = some word := by decide
  obtain ⟨same, word⟩ := own (unraw n) h
  exact (identifier?_congr same.symm).trans word

/-- Getters that are not reserved differ where the fields do not. -/
theorem getter_congr (h : ofName n = .ok names) (h' : ofName m = .ok names')
    (new : names.getter ∉ reserved) (new' : names'.getter ∉ reserved)
    (same : names.field = names'.field) : names.getter = names'.getter := by
  obtain ⟨word, getter, -⟩ := ofName_ok h
  obtain ⟨word', getter', -⟩ := ofName_ok h'
  have plain {n : String} {names : MemberNames} (word : identifier? n = some names.field)
      (old : unraw n ∈ reserved) : names.field = unraw n :=
    Option.some.inj (word.symm.trans (identifier?_of_reserved old))
  by_cases old : unraw n ∈ reserved <;> by_cases old' : unraw m ∈ reserved
  · rw [getter, getter', if_pos (by simpa using old), if_pos (by simpa using old'),
      ← plain word old, ← plain word' old', same]
  -- a getter of the one's field is reserved if the other's name is
  · rw [getter', if_neg (by simpa using old'), ← same, plain word old] at new'
    exact absurd old new'
  · rw [getter, if_neg (by simpa using old), same, plain word' old'] at new
    exact absurd old' new
  · rw [getter, getter', if_neg (by simpa using old), if_neg (by simpa using old'), same]

end MemberNames

namespace Slot

theorem ofProperties_ok {ps : List Property} {slots : List Slot} (h : ofProperties ps = .ok slots) :
    slots.map (·.property) = ps ∧ ∀ s ∈ slots, MemberNames.ofName s.property.name = .ok s.names := by
  induction ps generalizing slots with
  | nil =>
    obtain rfl := Except.ok.inj h
    simp
  | cons p rest ih =>
    obtain ⟨names, named, h⟩ := bind_ok_iff.1 h
    obtain ⟨others, made, h⟩ := bind_ok_iff.1 h
    obtain rfl := Except.ok.inj h
    obtain ⟨properties, all⟩ := ih made
    exact ⟨congrArg (p :: ·) properties, List.forall_mem_cons.2 ⟨named, all⟩⟩

variable {slots : List Slot}

/-- No function comes up twice, nor does one that every view may have. -/
theorem repeatedFunction?_eq_none_iff : repeatedFunction? slots = none ↔
    (slots.flatMap functions).Nodup ∧ ∀ s ∈ slots, ∀ f ∈ s.functions, f ∉ MemberNames.reserved := by
  rw [repeatedFunction?, firstRepeated?_eq_none_iff]
  simp only [List.mem_flatMap]
  constructor
  · rintro ⟨nodup, new⟩
    exact ⟨nodup, fun s hs f hf => new f ⟨s, hs, hf⟩⟩
  · rintro ⟨nodup, new⟩
    exact ⟨nodup, fun f ⟨s, hs, hf⟩ => new s hs f hf⟩

theorem getter_mem {s : Slot} (h : s.property.hasGetter = true) : s.names.getter ∈ s.functions := by
  simp [functions, h]

theorem setter_mem {s : Slot} (h : s.property.hasSetter = true) : s.names.setter ∈ s.functions := by
  simp [functions, h]

end Slot

namespace GeneratedRecord

variable {v : View} {g : GeneratedRecord} {slots : List Slot}

theorem written_ok {α : Type} {view : TypeName} {e : Except NameFault α} {a : α}
    (h : written view e = .ok a) : e = .ok a :=
  mapError_ok_iff.1 h

/-- What the record of a view is made of. -/
structure Writes (g : GeneratedRecord) (v : View) (slots : List Slot) : Prop where
  properties : slots.map (·.property) = v.properties
  named : ∀ s ∈ slots, MemberNames.ofName s.property.name = .ok s.names
  once : Slot.repeatedFunction? slots = none
  name : identifier? v.name.simple = some g.name
  fields : g.fields = fieldTypes slots
  functions : ∃ copy own, copyFunction v g.source slots = .ok copy ∧ accessors v slots = .ok own ∧
    g.functions = emptyFunction v slots ++ newFunction v slots ++ copy ++ own ++ errorsFunction v

theorem ofView_writes (h : ofView v = .ok g) : ∃ slots, g.Writes v slots := by
  obtain ⟨slots, made, h⟩ := bind_ok_iff.1 h
  obtain ⟨properties, named⟩ := Slot.ofProperties_ok (written_ok made)
  dsimp only at h
  split at h
  · cases h
  · rename_i other
    have once : Slot.repeatedFunction? slots = none := by
      cases found : Slot.repeatedFunction? slots with
      | none => rfl
      | some f => exact absurd found (other f)
    obtain ⟨name, word, h⟩ := bind_ok_iff.1 h
    obtain ⟨source, -, h⟩ := bind_ok_iff.1 h
    obtain ⟨copy, copied, h⟩ := bind_ok_iff.1 h
    obtain ⟨own, made, h⟩ := bind_ok_iff.1 h
    obtain rfl := Except.ok.inj h
    exact ⟨slots, properties, named, once, identifier?_eq_some_iff.2 (written_ok word), rfl, copy,
      own, copied, made, rfl⟩

theorem Writes.fields_eq (w : g.Writes v slots) : g.fields.map (·.1) = slots.map (·.names.field) := by
  rw [w.fields, fieldTypes, List.map_map]
  rfl

theorem Writes.identifier (w : g.Writes v slots) {s : Slot} (hs : s ∈ slots) :
    identifier? s.property.name = some s.names.field :=
  (MemberNames.ofName_ok (w.named s hs)).1

/-- Each field is the identifier of its property. -/
theorem Writes.identifiers (w : g.Writes v slots) :
    g.fields.map (some ·.1) = v.properties.map (identifier? ·.name) := by
  rw [w.fields, fieldTypes, ← w.properties, List.map_map, List.map_map]
  exact List.map_congr_left fun s hs => (w.identifier hs).symm

end GeneratedRecord

/-- The fields that a constructor gives values to, in their order. -/
def FunctionBody.initialised? : FunctionBody → Option (List String)
  | .defaults fields => some fields
  | .values fields => some (fields.map (·.1))
  | .extracts _ fields => some (fields.map (·.1))
  | .reads .. | .computes .. | .assigns .. | .errors _ => none

namespace GeneratedRecord

variable {v : View} {g : GeneratedRecord} {slots : List Slot} {fs : List GeneratedFunction}
  {f : GeneratedFunction} {fields : List String}

theorem mem_unlessNone {access : Access} {f' : GeneratedFunction} (h : f ∈ unlessNone access f') :
    f = f' := by
  unfold unlessNone at h
  split at h
  · cases h
  · exact List.mem_singleton.1 h

theorem map_of_mapM_ok {α β γ ε : Type} {f : α → Except ε β} {key : α → γ} {observe : β → γ}
    (effect : ∀ a b, f a = .ok b → observe b = key a) {l : List α} {out : List β}
    (h : l.mapM f = .ok out) : out.map observe = l.map key := by
  induction l generalizing out with
  | nil =>
    obtain rfl := Except.ok.inj h
    rfl
  | cons a rest ih =>
    rw [List.mapM_cons] at h
    obtain ⟨b, made, h⟩ := bind_ok_iff.1 h
    obtain ⟨others, all, h⟩ := bind_ok_iff.1 h
    obtain rfl := Except.ok.inj h
    rw [List.map_cons, List.map_cons, effect a b made, ih all]

theorem copyFunction_initialised {source : Path} (h : copyFunction v source slots = .ok fs)
    (hf : f ∈ fs) : f.body.initialised? = some (slots.map (·.names.field)) := by
  unfold copyFunction at h
  split at h
  · obtain rfl := Except.ok.inj h
    cases hf
  · obtain ⟨values, made, h⟩ := bind_ok_iff.1 h
    obtain rfl := Except.ok.inj h
    obtain rfl := List.mem_singleton.1 hf
    refine congrArg some (map_of_mapM_ok (fun s value extracted => ?_) made)
    obtain ⟨_, -, rfl⟩ := map_ok_iff.1 extracted
    rfl

theorem getterBody_initialised {s : Slot} {body : FunctionBody} (h : getterBody v s = .ok body) :
    body.initialised? = none := by
  unfold getterBody at h
  split at h
  · obtain rfl := Except.ok.inj h
    rfl
  · obtain ⟨_, -, rfl⟩ := map_ok_iff.1 h
    rfl

theorem getterFunction_initialised {s : Slot} (h : getterFunction v s = .ok fs) (hf : f ∈ fs) :
    f.body.initialised? = none := by
  unfold getterFunction at h
  split at h
  · obtain rfl := Except.ok.inj h
    cases hf
  · obtain ⟨body, made, h⟩ := bind_ok_iff.1 h
    obtain rfl := Except.ok.inj h
    obtain rfl := List.mem_singleton.1 hf
    exact getterBody_initialised made

/-- Getters and setters are no constructors. -/
theorem accessors_initialised (h : accessors v slots = .ok fs) (hf : f ∈ fs) :
    f.body.initialised? = none := by
  induction slots generalizing fs with
  | nil =>
    obtain rfl := Except.ok.inj h
    cases hf
  | cons s rest ih =>
    unfold accessors at h
    obtain ⟨getter, got, h⟩ := bind_ok_iff.1 h
    obtain ⟨others, made, h⟩ := bind_ok_iff.1 h
    obtain rfl := Except.ok.inj h
    rcases List.mem_append.1 hf with hf | hf
    · rcases List.mem_append.1 hf with hf | hf
      · exact getterFunction_initialised got hf
      · obtain rfl := mem_unlessNone hf
        rfl
    · exact ih made hf

/-- Every constructor gives values to the fields of the record, in their order. -/
theorem Writes.initialised (w : g.Writes v slots) (hf : f ∈ g.functions)
    (constructor : f.body.initialised? = some fields) : fields = g.fields.map (·.1) := by
  obtain ⟨copy, own, copied, made, functions⟩ := w.functions
  rw [functions] at hf
  simp only [List.mem_append] at hf
  rw [w.fields_eq]
  rcases hf with (((hf | hf) | hf) | hf) | hf
  · obtain rfl := mem_unlessNone hf
    exact (Option.some.inj constructor).symm
  · obtain rfl := mem_unlessNone hf
    refine (Option.some.inj constructor).symm.trans ?_
    rw [fieldTypes, List.map_map]
    rfl
  · rw [copyFunction_initialised copied hf] at constructor
    exact (Option.some.inj constructor).symm
  · rw [accessors_initialised made hf] at constructor
    cases constructor
  · unfold errorsFunction at hf
    split at hf
    · obtain rfl := List.mem_singleton.1 hf
      cases constructor
    · cases hf

end GeneratedRecord

/-- No property goes by the name of another one with the mark of a raw identifier. -/
def View.Unmarked (v : View) : Prop :=
  ∀ p ∈ v.properties, ∀ q ∈ v.properties, p.name ≠ "r#" ++ q.name

instance (v : View) : Decidable v.Unmarked :=
  inferInstanceAs (Decidable (∀ p ∈ v.properties, ∀ q ∈ v.properties, p.name ≠ "r#" ++ q.name))

namespace GeneratedRecord.Writes

variable {v : View} {g : GeneratedRecord} {slots : List Slot}

/-- The identifiers of the properties of which `has` holds, by the slots. -/
theorem identifiers_filter (w : g.Writes v slots) (has : Property → Bool) :
    (v.properties.filter has).map (identifier? ·.name) =
      (slots.filter (has ·.property)).map (some ·.names.field) := by
  rw [← w.properties, List.filter_map, List.map_map]
  exact List.map_congr_left fun s hs => w.identifier ((List.mem_filter.1 hs).1)

/-- Fields differ among slots that are given functions which would be the same if the fields
were. -/
theorem nodup_filter (w : g.Writes v slots) (has : Property → Bool) (function : Slot → String)
    (given : ∀ s, has s.property = true → function s ∈ s.functions)
    (congr : ∀ s ∈ slots, ∀ t ∈ slots, has s.property = true → has t.property = true →
      s.names.field = t.names.field → function s = function t) :
    ((v.properties.filter has).map (identifier? ·.name)).Nodup := by
  obtain ⟨nodup, -⟩ := Slot.repeatedFunction?_eq_none_iff.1 w.once
  have apart := (List.pairwise_flatMap.1 nodup).2
  rw [w.identifiers_filter, List.Nodup, List.pairwise_map]
  refine (apart.sublist List.filter_sublist).imp_of_mem fun {s t} hs ht differ same => ?_
  obtain ⟨hs, s_has⟩ := List.mem_filter.1 hs
  obtain ⟨ht, t_has⟩ := List.mem_filter.1 ht
  exact differ _ (given s s_has) _ (given t t_has)
    (congr s hs t ht s_has t_has (Option.some.inj same))

theorem nodup_getters (w : g.Writes v slots) :
    ((v.properties.filter (·.hasGetter)).map (identifier? ·.name)).Nodup := by
  have new := (Slot.repeatedFunction?_eq_none_iff.1 w.once).2
  refine w.nodup_filter _ (·.names.getter) (fun _ => Slot.getter_mem) ?_
  intro s hs t ht s_has t_has same
  exact MemberNames.getter_congr (w.named s hs) (w.named t ht) (new s hs _ (Slot.getter_mem s_has))
    (new t ht _ (Slot.getter_mem t_has)) same

theorem nodup_setters (w : g.Writes v slots) (plain : ∀ p ∈ v.properties, Plain p.name) :
    ((v.properties.filter (·.hasSetter)).map (identifier? ·.name)).Nodup := by
  have mem {s : Slot} (hs : s ∈ slots) : s.property ∈ v.properties :=
    w.properties ▸ List.mem_map_of_mem hs
  refine w.nodup_filter _ (·.names.setter) (fun _ => Slot.setter_mem) ?_
  intro s hs t ht _ _ same
  have bare := ((plain _ (mem hs)).identifier?_eq_iff (plain _ (mem ht)) (w.identifier hs)).1
    (by rw [w.identifier hs, w.identifier ht, same])
  rw [(MemberNames.ofName_ok (w.named s hs)).2.2,
    (MemberNames.ofName_ok (w.named t ht)).2.2, bare]

/-- All fields differ exactly if no two names differ by a mark. -/
theorem nodup_fields_iff (w : g.Writes v slots) (nodup : (v.properties.map (·.name)).Nodup)
    (plain : ∀ p ∈ v.properties, Plain p.name) :
    (g.fields.map (·.1)).Nodup ↔ v.Unmarked := by
  have fields : (g.fields.map (·.1)).Nodup ↔ (v.properties.map (identifier? ·.name)).Nodup := by
    rw [← w.identifiers, List.Nodup, List.Nodup, List.pairwise_map, List.pairwise_map]
    simp only [ne_eq, Option.some.injEq]
  have word {p : Property} (hp : p ∈ v.properties) : ∃ i, identifier? p.name = some i := by
    obtain ⟨s, hs, rfl⟩ := List.mem_map.1 (w.properties ▸ hp)
    exact ⟨_, w.identifier hs⟩
  rw [fields]
  constructor
  · intro differ p hp q hq marked
    have ne : p.name ≠ q.name := marked ▸ raw_ne q.name
    obtain ⟨i, hi⟩ := word hp
    have same := ((plain p hp).same_identifier_iff (plain q hq) ne hi).2 (Or.inl marked)
    exact ne (congrArg (·.name) (List.inj_on_of_nodup_map differ hp hq same))
  · intro unmarked
    rw [List.Nodup, List.pairwise_map]
    refine (List.pairwise_map.1 nodup).imp_of_mem fun {p q} hp hq ne same => ?_
    obtain ⟨i, hi⟩ := word hp
    rcases ((plain p hp).same_identifier_iff (plain q hq) ne hi).1 same with e | e
    · exact unmarked p hp q hq e
    · exact unmarked q hq p hp e

end GeneratedRecord.Writes

/-- The fields of a record that is rendered for a resolved view are the identifiers of its
properties, and every constructor gives values to just these. Those of properties with a getter
differ, and so do those of properties with a setter. All of them differ exactly if no property goes
by the name of another one with the mark of a raw identifier. -/
theorem Round.rendered_fields {r : Round} {bearer : Bearer} {request : ViewRequest} {v : View}
    {derives : List Path} {tokens : Tokens}
    (resolved : (r.resolveView bearer request).result = .ok v)
    (rendered : (Renderer.ofDerives derives).view v = .ok tokens) :
    ∃ g, GeneratedRecord.ofView v = .ok g ∧ tokens = g.tokens derives ∧
      g.fields.map (some ·.1) = v.properties.map (identifier? ·.name) ∧
      (∀ f ∈ g.functions, ∀ fields, f.body.initialised? = some fields →
        fields = g.fields.map (·.1)) ∧
      ((v.properties.filter (·.hasGetter)).map (identifier? ·.name)).Nodup ∧
      ((∀ p ∈ v.properties, Plain p.name) →
        ((v.properties.filter (·.hasSetter)).map (identifier? ·.name)).Nodup ∧
        ((g.fields.map (·.1)).Nodup ↔ v.Unmarked)) := by
  obtain ⟨_, _, -, -, assembled⟩ := resolveView_assembles resolved
  have nodup : (v.properties.map (·.name)).Nodup := by
    obtain ⟨-, once, rfl⟩ := assemble_ok assembled
    exact (firstRepeated?_eq_none_iff.1 once).1
  obtain ⟨g, made, rfl⟩ := map_ok_iff.1 rendered
  obtain ⟨slots, w⟩ := GeneratedRecord.ofView_writes made
  exact ⟨g, made, rfl, w.identifiers, fun f hf fields => w.initialised hf, w.nodup_getters,
    fun plain => ⟨w.nodup_setters plain, w.nodup_fields_iff nodup plain⟩⟩

/-- Asks for both names of a person, without functions of their own. -/
def bothNames : ViewRequest where
  includes := ["name", "nick"]
  getters := .none

def nicknamed (rename : String) : Bearer where
  name := ⟨["crate"], "Person"⟩
  requests := [bothNames]
  overrides := [{ name := "nick", rename := some rename }]

def register (rename : String) : Round where
  library := { leading := true, segments := [{ name := "view_synth" }] }
  model := ⟨[{
    name := ⟨["crate"], "Person"⟩
    members := [
      .field "name" (.path (.ofNames ["String"])),
      .field "nick" (.path (.ofNames ["String"]))] }]⟩
  bearers := [nicknamed rename]

/-- A keyword makes a field of its own. -/
theorem keyword_fields_differ :
    ∃ v, ((register "type").resolveView (nicknamed "type") bothNames).result = .ok v ∧
      ∃ g, GeneratedRecord.ofView v = .ok g ∧ g.fields.map (some ·.1) = [some "name", some "r#type"] ∧
        v.Unmarked ∧ (g.fields.map (·.1)).Nodup := by
  obtain ⟨v, resolved, tokens, rendered, words, plain, unmarked⟩ : ∃ v,
      ((register "type").resolveView (nicknamed "type") bothNames).result = .ok v ∧
      ∃ tokens, (Renderer.ofDerives []).view v = .ok tokens ∧
        v.properties.map (identifier? ·.name) = [some "name", some "r#type"] ∧
        (∀ p ∈ v.properties, Plain p.name) ∧ v.Unmarked :=
    ⟨_, rfl, _, rfl, by decide, by decide, by decide⟩
  obtain ⟨g, made, -, identifiers, -, -, differ⟩ := Round.rendered_fields resolved rendered
  exact ⟨v, resolved, g, made, identifiers.trans words, unmarked, (differ plain).2.2 unmarked⟩

/-- Two properties, one field: every constructor gives it two values. -/
theorem marked_fields_collide :
    ∃ v, ((register "r#name").resolveView (nicknamed "r#name") bothNames).result = .ok v ∧
      (v.properties.map (·.name)).Nodup ∧
      ∃ g : GeneratedRecord, (Renderer.ofDerives []).view v = .ok (g.tokens []) ∧
        g.fields.map (·.1) = ["name", "name"] ∧ ¬ (g.fields.map (·.1)).Nodup :=
  ⟨_, rfl, by decide, _, rfl, rfl, by decide⟩

end RecordViews
