import RecordViews.Proofs.Histories

/-! How the value of a property gets into a view. It is read from a member or given by a function,
then converted, then projected into another view. A function gives the final value, but only the
change that adds a converter or a view looks whether there is a function: a function that comes
later is let through. Where every property meets one change at most, the types along the way fit. -/

namespace RecordViews

open Grammar (Ty)

/-- What is read, what is made of it, and the type that it is shown with. -/
structure Pipeline where
  explicit : Option Extractor
  direct : Option DirectRead
  converter : Option Converter
  view : Option TypeName
  ty : Ty

namespace Property

def pipeline (p : Property) : Pipeline where
  explicit := p.explicit
  direct := p.direct
  converter := p.converter
  view := p.view
  ty := p.ty

/-- The value that is read goes into a converter or another view. -/
def passedOn (p : Property) : Bool :=
  p.converter.isSome || p.view.isSome

def Mixed (p : Property) : Prop :=
  p.explicit.isSome = true ∧ p.passedOn = true

end Property

/-- The change adds a converter or a view. -/
def Override.passesOn (o : Override) : Bool :=
  o.converter.isSome || o.view.isSome

namespace Customiser

variable {c : Customiser} {o : Override} {p q : Property} {os : List Override}

/-- Three steps of a change reach the pipeline of the property. -/
theorem change_pipeline (h : c.change o p = .ok q) :
    ∃ p₁ p₂ p₃ p₄, p₁.pipeline = p.pipeline ∧ c.changeExtractor o p₁ = .ok p₂ ∧
      c.changeConverter o p₂ = .ok p₃ ∧ c.changeView o p₃ = .ok p₄ ∧ q.pipeline = p₄.pipeline := by
  obtain ⟨p₁, setter, p₂, extractor, p₃, converter, p₄, view, h⟩ := change_ok_iff.1 h
  refine ⟨p₁, p₂, p₃, p₄, ?_, extractor, converter, view, ?_⟩
  · have getter : (changeGetter o p).pipeline = p.pipeline := by
      rcases changeGetter_cases o p with e | ⟨_, e⟩
      · rw [e]
      · rw [e]
        rfl
    rw [← getter]
    rcases changeSetter_cases setter with rfl | ⟨_, rfl⟩ <;> rfl
  · have comment : (changeComment o p₄).pipeline = p₄.pipeline := by
      rcases changeComment_cases o p₄ with e | ⟨_, e⟩
      · rw [e]
      · rw [e]
        rfl
    rw [← comment]
    rcases changeName_cases h with ⟨_, rfl⟩ | ⟨_, _, rfl⟩ <;> rfl

theorem changeExtractor_mix (h : c.changeExtractor o p = .ok q) :
    q.explicit.isSome = (p.explicit.isSome || o.extractor.isSome) ∧ q.passedOn = p.passedOn := by
  rcases changeExtractor_cases h with ⟨none, rfl⟩ | ⟨s, some, rfl⟩
  · simp [none]
  · exact ⟨by simp [some, Property.withExtractor], rfl⟩

theorem changeConverter_mix (h : c.changeConverter o p = .ok q) :
    q.explicit = p.explicit ∧ q.passedOn = (p.passedOn || o.converter.isSome) ∧
      (o.converter.isSome = true → p.explicit = none) := by
  rcases changeConverter_cases h with ⟨none, rfl⟩ | ⟨k, some, read, -, rfl⟩
  · simp [none]
  · exact ⟨rfl, by simp [some, Property.passedOn, Property.withConverter, Property.withType],
      fun _ => read⟩

theorem changeView_mix (h : c.changeView o p = .ok q) :
    q.explicit = p.explicit ∧ q.passedOn = (p.passedOn || o.view.isSome) ∧
      (o.view.isSome = true → p.explicit = none) := by
  rcases changeView_cases h with ⟨none, rfl⟩ | ⟨view, ty, some, read, -, rfl⟩
  · simp [none]
  · exact ⟨rfl, by simp [some, Property.passedOn, Property.withType], fun _ => read⟩

theorem explicit_of_pipeline (h : q.pipeline = p.pipeline) : q.explicit = p.explicit :=
  congrArg Pipeline.explicit h

theorem passedOn_of_pipeline (h : q.pipeline = p.pipeline) : q.passedOn = p.passedOn := by
  have converter : q.converter = p.converter := congrArg Pipeline.converter h
  have view : q.view = p.view := congrArg Pipeline.view h
  rw [Property.passedOn, converter, view, Property.passedOn]

/-- A converter or a view is refused where there is a function, also one of the same change. A
function is not refused where there is a converter or a view. -/
theorem change_mix (h : c.change o p = .ok q) :
    q.explicit.isSome = (p.explicit.isSome || o.extractor.isSome) ∧
      q.passedOn = (p.passedOn || o.passesOn) ∧
      (o.passesOn = true → q.explicit = none) := by
  obtain ⟨p₁, p₂, p₃, p₄, start, extractor, converter, view, finish⟩ := change_pipeline h
  obtain ⟨explicit₂, passed₂⟩ := changeExtractor_mix extractor
  obtain ⟨explicit₃, passed₃, read₃⟩ := changeConverter_mix converter
  obtain ⟨explicit₄, passed₄, read₄⟩ := changeView_mix view
  have explicit : q.explicit = p₂.explicit := by
    rw [explicit_of_pipeline finish, explicit₄, explicit₃]
  refine ⟨?_, ?_, fun passes => ?_⟩
  · rw [explicit, explicit₂, explicit_of_pipeline start]
  · rw [passedOn_of_pipeline finish, passed₄, passed₃, passed₂, passedOn_of_pipeline start,
      Override.passesOn, Bool.or_assoc]
  · rw [explicit]
    rcases Bool.or_eq_true_iff.1 passes with some | some
    · exact read₃ some
    · exact explicit₃ ▸ read₄ some

/-- A property that starts as the reading of a member has a function if some change made to it gives
one, and is passed on if some change made to it does so. -/
theorem Made.halves (made : c.Made p os q) (read : p.explicit = none) (plain : p.passedOn = false) :
    q.explicit.isSome = os.any (·.extractor.isSome) ∧ q.passedOn = os.any (·.passesOn) := by
  induction made with
  | start => simp [read, plain]
  | more o before named change ih =>
    obtain ⟨explicit, passed, -⟩ := change_mix change
    simp [explicit, passed, ih.1, ih.2]

/-- It ends up with a function in front of a converter or a view exactly if a change made to it adds
the converter or the view and a later one gives the function. -/
theorem Made.mixed_iff (made : c.Made p os q) (read : p.explicit = none)
    (plain : p.passedOn = false) :
    q.Mixed ↔ ∃ d o, [d, o].Sublist os ∧ d.passesOn = true ∧ o.extractor.isSome = true := by
  constructor
  · intro mixed
    induction made with
    | start => exact absurd mixed.1 (by simp [read])
    | @more os q q' o before named change ih =>
      obtain ⟨explicit, passed, refused⟩ := change_mix change
      -- the last change does not pass the value on, as it would have been refused
      have last : o.passesOn = false := by
        rw [← Bool.not_eq_true]
        intro passes
        rw [Property.Mixed, refused passes] at mixed
        exact absurd mixed.1 (by simp)
      have already : q.passedOn = true := by
        rw [← mixed.2, passed, last, Bool.or_false]
      by_cases function : o.extractor.isSome = true
      · rw [(before.halves read plain).2, List.any_eq_true] at already
        obtain ⟨d, hd, passes⟩ := already
        have earlier : [d].Sublist os := List.singleton_sublist.2 hd
        exact ⟨d, o, earlier.append (List.Sublist.refl [o]), passes, function⟩
      · have given : q.explicit.isSome = true := by
          rw [← mixed.1, explicit, eq_false_of_ne_true function, Bool.or_false]
        obtain ⟨d, o', sub, h⟩ := ih ⟨given, already⟩
        exact ⟨d, o', sub.trans (List.sublist_append_left os [o]), h⟩
  · rintro ⟨d, o, sub, passes, function⟩
    obtain ⟨explicit, passed⟩ := made.halves read plain
    have hd : d ∈ os := sub.subset List.mem_cons_self
    have ho : o ∈ os := sub.subset (List.mem_cons_of_mem d List.mem_cons_self)
    rw [Property.Mixed, explicit, passed]
    exact ⟨List.any_eq_true.2 ⟨o, ho, function⟩, List.any_eq_true.2 ⟨d, hd, passes⟩⟩

end Customiser

namespace Round

variable {r : Round} {bearer : Bearer} {request : ViewRequest} {v : View}

theorem traced_mixed_iff {t : Traced} (ht : t ∈ r.traced bearer request) :
    t.property.Mixed ↔
      ∃ d o, [d, o].Sublist t.changes ∧ d.passesOn = true ∧ o.extractor.isSome = true := by
  obtain ⟨source, ⟨-, m, -, made⟩ | ⟨none, a, made⟩⟩ := traced_cases ht
  · exact made.mixed_iff rfl rfl
  · rw [none, Customiser.newProperty_ok made]
    refine iff_of_false (fun mixed => Bool.false_ne_true mixed.2) ?_
    rintro ⟨d, o, sub, -⟩
    exact absurd sub.length_le (by simp)

/-- In a view, a property has a function in front of a converter or another view exactly if one of
the changes made to it adds the converter or the view and a later one gives the function. Where the
changes of the config type are independent there is no such property. -/
theorem resolved_mixed_iff (r : Round) (bearer : Bearer) (request : ViewRequest) {v : View}
    (h : (r.resolveView bearer request).result = .ok v) :
    v.properties = (r.traced bearer request).map (·.property) ∧
    (∀ t ∈ r.traced bearer request, t.property.Mixed ↔
      ∃ d o, [d, o].Sublist t.changes ∧ d.passesOn = true ∧ o.extractor.isSome = true) ∧
    (Customiser.Independent (r.changesOf v.config) → ∀ p ∈ v.properties, ¬ p.Mixed) := by
  have properties := resolveView_traced h
  refine ⟨properties, fun t ht => traced_mixed_iff ht, fun independent p hp => ?_⟩
  obtain ⟨-, -, -, -, -, config, -⟩ := resolveView_ok h
  rw [properties] at hp
  obtain ⟨t, ht, rfl⟩ := List.mem_map.1 hp
  rw [traced_mixed_iff ht]
  rintro ⟨d, o, sub, -⟩
  -- two changes of one property
  have two : 2 ≤ t.changes.length := sub.length_le
  have once := traced_once ht (config ▸ independent)
  omega

end Round

def ageAndHome : ViewRequest := { includes := ["age", "home"] }

def resident (overrides : List Override) : Bearer where
  name := ⟨["crate"], "Person"⟩
  requests := [ageAndHome]
  overrides

def census (overrides : List Override) : Round where
  library := { leading := true, segments := [{ name := "view_synth" }] }
  model := ⟨[{
    name := ⟨["crate"], "Person"⟩
    members := [
      .field "age" (.path (.ofNames ["u32"])),
      .field "home" (.path (.ofNames ["Home"]))] }]⟩
  bearers := [resident overrides]

def personFunction (name result : String) : Signature where
  container := ⟨["crate"], "Person"⟩
  name
  params := [.reference none false (.path (.ofNames ["Person"]))]
  result := .path (.ofNames [result])

/-- Converts the age and then projects what comes of it, and computes the home. -/
def stacked : List Override := [
  { name := "age", rename := some "generation", view := some ⟨["crate", "views"], "CohortView"⟩,
    converter := some
      { path := .ofNames ["Cohorts"], output := some (.path (.ofNames ["Cohort"])) } },
  { name := "home", extractor := some (personFunction "home" "Home") }]

theorem stacked_unmixed :
    ∃ v, ((census stacked).resolveView (resident stacked) ageAndHome).result = .ok v ∧
      Customiser.Independent ((census stacked).changesOf v.config) ∧
      (∀ p ∈ v.properties, ¬ p.Mixed) ∧
      (v.properties.map fun p => (p.name, p.explicit.isSome, p.passedOn)) =
        [("generation", false, true), ("home", true, false)] := by
  obtain ⟨v, h, shown⟩ : ∃ v,
      ((census stacked).resolveView (resident stacked) ageAndHome).result = .ok v ∧
      (v.properties.map fun p => (p.name, p.explicit.isSome, p.passedOn)) =
        [("generation", false, true), ("home", true, false)] := ⟨_, rfl, by decide⟩
  obtain ⟨-, -, -, -, -, config, -⟩ := Round.resolveView_ok h
  have independent : Customiser.Independent ((census stacked).changesOf v.config) := by
    rw [config]
    exact Customiser.independent_of_free (by decide) (by decide)
  exact ⟨v, h, independent, ((census stacked).resolved_mixed_iff _ _ h).2.2 independent, shown⟩

/-- Converts the age and projects the home into a view, both under other names. -/
def passing : List Override := [
  { name := "age", rename := some "label",
    converter := some
      { path := .ofNames ["Stringify"], output := some (.path (.ofNames ["String"])) } },
  { name := "home", rename := some "place", view := some ⟨["crate"], "HomeView"⟩ }]

/-- Gives functions to what `passing` has renamed. -/
def overtaken : List Override := passing ++ [
  { name := "label", extractor := some (personFunction "label" "String") },
  { name := "place", extractor := some (personFunction "place" "HomeView") }]

/-- All changes have different names, and yet functions end up in front of the converter and of the
view. -/
theorem overtaken_mixed :
    (overtaken.map (·.name)).Nodup ∧
    ∃ v, ((census overtaken).resolveView (resident overtaken) ageAndHome).result = .ok v ∧
      (∃ p ∈ v.properties, p.explicit.isSome = true ∧ p.converter.isSome = true) ∧
      ∃ p ∈ v.properties, p.explicit.isSome = true ∧ p.view.isSome = true := by
  exact ⟨by decide, _, rfl, by decide, by decide⟩

namespace Property

/-- The value that `e` gives fits all that it goes through: the converter takes what `e` gives, and
the type shown is that of the view as code in `scope` names it, or what the converter gives, or what
`e` gives. -/
structure Typed (p : Property) (scope : Scope) (e : Extractor) : Prop where
  reads : p.extractor? = some e
  taken : ∀ k, p.converter = some k → k.input = e.result
  projected : ∀ view, p.view = some view → Ty.ofName view scope = .ok p.ty
  converted : p.view = none → ∀ k, p.converter = some k → p.ty = k.output
  plain : p.view = none → p.converter = none → p.ty = e.result

variable {p q : Property} {scope : Scope} {e : Extractor}

theorem Typed.of_pipeline (typed : p.Typed scope e) (same : q.pipeline = p.pipeline) :
    q.Typed scope e := by
  cases p
  cases q
  obtain ⟨rfl, rfl, rfl, rfl, rfl⟩ := Pipeline.mk.inj same
  exact ⟨typed.reads, typed.taken, typed.projected, typed.converted, typed.plain⟩

/-- The value is shown as `e` gives it. -/
structure Bare (p : Property) (e : Extractor) : Prop where
  reads : p.extractor? = some e
  shown : p.ty = e.result
  converter : p.converter = none
  view : p.view = none

theorem Bare.of_pipeline (bare : p.Bare e) (same : q.pipeline = p.pipeline) : q.Bare e := by
  cases p
  cases q
  obtain ⟨rfl, rfl, rfl, rfl, rfl⟩ := Pipeline.mk.inj same
  exact ⟨bare.reads, bare.shown, bare.converter, bare.view⟩

theorem Bare.typed (bare : p.Bare e) (scope : Scope) : p.Typed scope e where
  reads := bare.reads
  taken k h := by simp [bare.converter] at h
  projected view h := by simp [bare.view] at h
  converted _ k h := by simp [bare.converter] at h
  plain _ _ := bare.shown

theorem ofMember_bare (m : Member) (getter setter : Access) :
    (ofMember m getter setter).Bare (.direct (.ofMember m)) :=
  ⟨rfl, rfl, rfl, rfl⟩

theorem computed_bare (name : String) (s : Signature) (getter : Access) :
    (computed name s getter).Bare (.function s) :=
  ⟨rfl, rfl, rfl, rfl⟩

end Property

namespace Customiser

variable {c : Customiser} {o : Override} {p q : Property} {e : Extractor} {scope : Scope}

theorem changeExtractor_bare (h : c.changeExtractor o p = .ok q) (bare : p.Bare e) :
    ∃ e', q.Bare e' := by
  rcases changeExtractor_cases h with ⟨-, rfl⟩ | ⟨s, -, rfl⟩
  · exact ⟨e, bare⟩
  · exact ⟨.function s, rfl, rfl, bare.converter, bare.view⟩

theorem changeConverter_typed (h : c.changeConverter o p = .ok q) (bare : p.Bare e)
    (scope : Scope) : q.Typed scope e := by
  rcases changeConverter_cases h with ⟨-, rfl⟩ | ⟨k, -, -, input, rfl⟩
  · exact bare.typed scope
  · constructor
    · exact bare.reads
    · rintro _ ⟨⟩
      exact input.trans bare.shown
    · rintro _ ⟨⟩
    · rintro - _ ⟨⟩
      rfl
    · rintro - ⟨⟩

theorem changeView_typed (h : c.changeView o p = .ok q) (typed : p.Typed c.scope e) :
    q.Typed c.scope e := by
  rcases changeView_cases h with ⟨-, rfl⟩ | ⟨view, ty, -, -, named, rfl⟩
  · exact typed
  · constructor
    · exact typed.reads
    · exact typed.taken
    · rintro _ ⟨⟩
      exact named
    · rintro ⟨⟩
    · rintro ⟨⟩

/-- One change to a property that is shown as it is got keeps the types fitting. -/
theorem change_typed (h : c.change o p = .ok q) (bare : p.Bare e) :
    ∃ e', q.Typed c.scope e' := by
  obtain ⟨p₁, p₂, p₃, p₄, start, extractor, converter, view, finish⟩ := change_pipeline h
  obtain ⟨e', bare₂⟩ := changeExtractor_bare extractor (bare.of_pipeline start)
  have typed₄ := changeView_typed view (changeConverter_typed converter bare₂ c.scope)
  exact ⟨e', typed₄.of_pipeline finish⟩

end Customiser

/-- Let the changes of the config type have different names, and let none of them give its property
the name of another. Then the value of every property of the view is got, and the types fit along
its way: the converter takes what is got, and the type shown is that of the view that the value is
projected into, or else what the converter gives, or else what is got. -/
theorem Round.resolved_typed (r : Round) (bearer : Bearer) (request : ViewRequest) {v : View}
    (h : (r.resolveView bearer request).result = .ok v)
    (named : ((r.changesOf v.config).map (·.name)).Nodup)
    (free : ∀ d ∈ r.changesOf v.config, ∀ o ∈ r.changesOf v.config,
      d.name ≠ o.name → d.rename ≠ some o.name) :
    ∀ p ∈ v.properties, ∃ e, p.Typed v.name.module e := by
  intro p hp
  obtain ⟨-, -, -, -, -, config, name⟩ := resolveView_ok h
  rw [resolveView_traced h] at hp
  obtain ⟨t, ht, rfl⟩ := List.mem_map.1 hp
  obtain ⟨source, ⟨sub, m, -, made⟩ | ⟨-, a, made⟩⟩ := traced_cases ht
  · have independent := Customiser.independent_of_free named free
    rw [config] at independent
    have bare := Property.ofMember_bare m request.getters request.setters
    rcases made.once (independent.sublist sub) with ⟨-, same⟩ | ⟨o, -, change⟩
    · rw [same]
      exact ⟨_, bare.typed _⟩
    · rw [name]
      exact Customiser.change_typed change bare
  · rw [Customiser.newProperty_ok made]
    exact ⟨_, (Property.computed_bare _ _ _).typed _⟩

theorem stacked_typed :
    ∃ v, ((census stacked).resolveView (resident stacked) ageAndHome).result = .ok v ∧
      ((((census stacked).changesOf v.config).map (·.name)).Nodup ∧
        ∀ d ∈ (census stacked).changesOf v.config, ∀ o ∈ (census stacked).changesOf v.config,
          d.name ≠ o.name → d.rename ≠ some o.name) ∧
      ∀ p ∈ v.properties, ∃ e, p.Typed v.name.module e := by
  obtain ⟨v, h⟩ : ∃ v,
      ((census stacked).resolveView (resident stacked) ageAndHome).result = .ok v := ⟨_, rfl⟩
  obtain ⟨-, -, -, -, -, config, -⟩ := Round.resolveView_ok h
  have named : (((census stacked).changesOf v.config).map (·.name)).Nodup := by
    rw [config]
    decide
  have free : ∀ d ∈ (census stacked).changesOf v.config,
      ∀ o ∈ (census stacked).changesOf v.config, d.name ≠ o.name → d.rename ≠ some o.name := by
    rw [config]
    decide
  exact ⟨v, h, ⟨named, free⟩, (census stacked).resolved_typed _ _ h named free⟩

end RecordViews
