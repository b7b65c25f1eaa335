import RecordViews.Proofs.Pipeline
import RecordViews.Proofs.RecordValues

/-! Setters of properties whose getters compute. A further property that a function gives is refused
a setter. A change to the property of a member is not: the setter stays, or is added, and assigns
the field, while the getter calls the function at every read if the function has no parameters. The
last function that is given counts, so that a later one can also undo this. -/

namespace RecordViews

open Grammar (Path)

def Traced.lastFunction? (t : Traced) : Option Signature :=
  (t.changes.filterMap (·.extractor)).getLast?

/-- What the getter of a property reads is what its setter assigns. -/
def GeneratedRecord.ReadsBack (g : GeneratedRecord) (p : Property) : Prop :=
  ∃ getter setter field ty, g.accessor? .getter p = some getter ∧
    g.accessor? .setter p = some setter ∧ getter.body = .reads field ty ∧
    setter.body = .assigns field ty

namespace Customiser

variable {c : Customiser} {o : Override} {p q : Property} {os : List Override}

/-- A change keeps the function that was given before unless it gives one itself. -/
theorem change_explicit (h : c.change o p = .ok q) :
    q.explicit = (o.extractor.map .function <|> p.explicit) := by
  obtain ⟨p₁, p₂, p₃, p₄, start, extractor, converter, view, finish⟩ := change_pipeline h
  rw [explicit_of_pipeline finish, (changeView_mix view).1, (changeConverter_mix converter).1,
    ← explicit_of_pipeline start]
  rcases changeExtractor_cases extractor with ⟨none, rfl⟩ | ⟨s, some, rfl⟩
  · simp [none]
  · simp [some, Property.withExtractor]

theorem Made.explicit (made : c.Made p os q) :
    q.explicit = ((os.filterMap (·.extractor)).getLast?.map .function <|> p.explicit) := by
  induction made with
  | start => rfl
  | @more os q q' o before named change ih =>
    rw [change_explicit change, ih, List.filterMap_append]
    cases given : o.extractor with
    | none => simp [given]
    | some s => simp [given]

end Customiser

namespace Round

variable {r : Round} {bearer : Bearer} {request : ViewRequest} {t : Traced}

/-- The getter of a property with a setter computes exactly if the last function that was given to
it has no parameters. -/
theorem traced_dynamic_iff (ht : t ∈ r.traced bearer request)
    (has : t.property.hasSetter = true) :
    t.property.isDynamic = false ↔ ∀ s, t.lastFunction? = some s → s.params ≠ [] := by
  obtain ⟨source, ⟨-, m, -, made⟩ | ⟨-, a, made⟩⟩ := traced_cases ht
  · rw [Property.isDynamic, made.explicit, Traced.lastFunction?]
    cases (t.changes.filterMap (·.extractor)).getLast? with
    | none => simp [Property.ofMember]
    | some s => simp [Extractor.isDynamic]
  · rw [Customiser.newProperty_ok made] at has
    cases has

end Round

namespace GeneratedRecord.Writes

variable {v : View} {g : GeneratedRecord} {slots : List Slot} {s : Slot}

theorem readsBack_iff (w : g.Writes v slots) (hs : s ∈ slots) (get : s.property.hasGetter = true)
    (set : s.property.hasSetter = true) :
    g.ReadsBack s.property ↔ s.property.isDynamic = false := by
  obtain ⟨setter, assigned, assigns⟩ := w.setter_eq hs set
  constructor
  · rintro ⟨getter, -, field, ty, found, -, reads, -⟩
    rw [Bool.eq_false_iff]
    intro dynamic
    obtain ⟨f, value, found', computes⟩ := w.getter_computes hs get dynamic
    obtain rfl := Option.some.inj (found.symm.trans found')
    rw [reads] at computes
    cases computes
  · intro stored
    obtain ⟨getter, found, reads⟩ := w.getter_reads hs get stored
    exact ⟨getter, setter, _, _, found, assigned, reads, assigns⟩

/-- What is assigned is what is read next, whatever the values are, unless the getter computes. -/
theorem get?_set?_iff (w : g.Writes v slots) (hs : s ∈ slots) (get : s.property.hasGetter = true)
    (set : s.property.hasSetter = true) :
    (∀ (V : Type) (compute : Tokens → V) (values : FieldValues V) (x : V),
      ∃ values', g.set? values s.property x = some values' ∧
        g.get? compute values' s.property = some x) ↔ s.property.isDynamic = false := by
  constructor
  · intro same
    rw [Bool.eq_false_iff]
    intro dynamic
    -- what is computed is false throughout, and true is assigned
    obtain ⟨values', -, given⟩ := same Bool (fun _ => false) (fun _ => none) true
    obtain ⟨value, computed⟩ := w.get?_computed (fun _ => false) hs get dynamic
    rw [computed] at given
    cases given
  · intro stored V compute values x
    refine ⟨_, w.set?_eq hs set values x, ?_⟩
    rw [w.get?_stored hs get stored, Function.update_self]

end GeneratedRecord.Writes

/-- A rendered property with a getter and a setter reads the field that it assigns, and gives the
value that was assigned last, exactly if the last function that was given to it has a parameter, or
none was given. The functions are those that are printed. -/
theorem Round.rendered_setters {r : Round} {bearer : Bearer} {request : ViewRequest} {v : View}
    {derives : List Path} {tokens : Tokens}
    (resolved : (r.resolveView bearer request).result = .ok v)
    (rendered : (Renderer.ofDerives derives).view v = .ok tokens) :
    v.properties = (r.traced bearer request).map (·.property) ∧
    ∃ g, GeneratedRecord.ofView v = .ok g ∧ tokens = g.tokens derives ∧ g.Printed derives tokens ∧
      ∀ t ∈ r.traced bearer request, t.property.hasGetter = true → t.property.hasSetter = true →
        (g.ReadsBack t.property ↔ ∀ s, t.lastFunction? = some s → s.params ≠ []) ∧
        ((∀ (V : Type) (compute : Tokens → V) (values : FieldValues V) (x : V),
          ∃ values', g.set? values t.property x = some values' ∧
            g.get? compute values' t.property = some x) ↔
          ∀ s, t.lastFunction? = some s → s.params ≠ []) := by
  have properties := resolveView_traced resolved
  obtain ⟨g, made, rfl⟩ := map_ok_iff.1 rendered
  obtain ⟨slots, w⟩ := GeneratedRecord.ofView_writes made
  refine ⟨properties, g, made, rfl, g.printed derives, fun t ht get set => ?_⟩
  have shown : t.property ∈ slots.map (·.property) := by
    rw [w.properties, properties]
    exact List.mem_map_of_mem ht
  obtain ⟨s, hs, same⟩ := List.mem_map.1 shown
  rw [← traced_dynamic_iff ht set]
  rw [← same] at get set ⊢
  exact ⟨w.readsBack_iff hs get set, w.get?_set?_iff hs get set⟩

def namesOnly : ViewRequest where
  includes := ["name"]

/-- A person whose name has a setter and is given by a function with these parameters. -/
def assignable (params : List Grammar.Ty) : Bearer where
  name := ⟨["crate"], "Person"⟩
  requests := [namesOnly]
  overrides := [{
    name := "name"
    setter := some .everywhere
    extractor := some { personFunction "label" "String" with params } }]

def people (params : List Grammar.Ty) : Round where
  library := { leading := true, segments := [{ name := "view_synth" }] }
  model := ⟨[{
    name := ⟨["crate"], "Person"⟩
    members := [.field "name" (.path (.ofNames ["String"]))] }]⟩
  bearers := [assignable params]

/-- What a function reads from the person is kept in the field, and can be replaced there. -/
theorem read_label_replaced :
    ∃ v, ((people (personFunction "label" "String").params).resolveView
        (assignable (personFunction "label" "String").params) namesOnly).result = .ok v ∧
      ∃ g, GeneratedRecord.ofView v = .ok g ∧
        ∃ p, v.properties = [p] ∧ p.explicit.isSome = true ∧ g.ReadsBack p := by
  obtain ⟨v, resolved, tokens, rendered, t, traced, explicit, get, set, last⟩ : ∃ v,
      ((people (personFunction "label" "String").params).resolveView
        (assignable (personFunction "label" "String").params) namesOnly).result = .ok v ∧
      ∃ tokens, (Renderer.ofDerives []).view v = .ok tokens ∧
      ∃ t, (people (personFunction "label" "String").params).traced
          (assignable (personFunction "label" "String").params) namesOnly = [t] ∧
        t.property.explicit.isSome = true ∧ t.property.hasGetter = true ∧
        t.property.hasSetter = true ∧
        t.lastFunction? = some (personFunction "label" "String") :=
    ⟨_, rfl, _, rfl, _, rfl, rfl, rfl, rfl, rfl⟩
  obtain ⟨properties, g, made, -, -, reads⟩ := Round.rendered_setters resolved rendered
  rw [traced] at properties reads
  refine ⟨v, resolved, g, made, t.property, properties, explicit, ?_⟩
  refine (reads t List.mem_cons_self get set).1.2 fun s hs => ?_
  obtain rfl := Option.some.inj (last.symm.trans hs)
  exact List.cons_ne_nil _ _

/-- A function without parameters is called by the getter, so that what is assigned is never
read. -/
theorem computed_label_stays :
    ∃ v, ((people []).resolveView (assignable []) namesOnly).result = .ok v ∧
      ∃ g, GeneratedRecord.ofView v = .ok g ∧ (Renderer.ofDerives []).view v = .ok (g.tokens []) ∧
        ∃ p, v.properties = [p] ∧ p.hasGetter = true ∧ p.hasSetter = true ∧ ¬ g.ReadsBack p ∧
          ∃ values' : FieldValues Bool, g.set? (fun _ => some false) p true = some values' ∧
            g.get? (fun _ => false) values' p = some false := by
  refine ⟨_, rfl, _, rfl, rfl, _, rfl, rfl, rfl, ?_, _, rfl, rfl⟩
  rintro ⟨getter, setter, field, ty, found, -, reads, -⟩
  cases found
  cases reads

end RecordViews
