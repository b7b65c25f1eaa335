import RecordViews.Proofs.Customising
import RecordViews.Round.Resolved

/-! Which changes each property of a view went through. A change is made to whatever property goes
by its name when its turn comes, so one property can meet several changes, also of different names.
The changes that a property met are noted beside it; the notes change nothing, and `traced_cases`
says how every property of a resolved view came about. -/

namespace RecordViews

section Lists

variable {α β : Type}

theorem map_editFirst {hit : α → Bool} {f : α → Option α} {g : α → β} {hit' : β → Bool}
    {f' : β → Option β} (same : ∀ a, hit' (g a) = hit a) (image : ∀ a, (f a).map g = f' (g a))
    (l : List α) : (editFirst hit f l).map g = editFirst hit' f' (l.map g) := by
  induction l with
  | nil => rfl
  | cons a rest ih =>
    rw [List.map_cons, editFirst, editFirst, same, ← image]
    split
    · rw [List.map_append]
      cases f a <;> rfl
    · rw [List.map_cons, ih]

theorem mem_editFirst {hit : α → Bool} {f : α → Option α} {l : List α} {b : α}
    (h : b ∈ editFirst hit f l) : b ∈ l ∨ ∃ a ∈ l, hit a = true ∧ f a = some b := by
  induction l with
  | nil => exact absurd h (by simp [editFirst])
  | cons a rest ih =>
    unfold editFirst at h
    split at h
    · rename_i ha
      rcases List.mem_append.1 h with h | h
      · exact Or.inr ⟨a, List.mem_cons_self, ha, Option.mem_toList.1 h⟩
      · exact Or.inl (List.mem_cons_of_mem a h)
    · rcases List.mem_cons.1 h with rfl | h
      · exact Or.inl List.mem_cons_self
      · rcases ih h with h | ⟨a', ha', hit, made⟩
        · exact Or.inl (List.mem_cons_of_mem a h)
        · exact Or.inr ⟨a', List.mem_cons_of_mem a ha', hit, made⟩

end Lists

/-- A property with the changes that were made to it, in their order. -/
structure Traced where
  property : Property
  changes : List Override := []

/-- A property that no change was made to. -/
def Traced.unchanged (p : Property) : Traced where
  property := p

@[simp] theorem Traced.map_unchanged (ps : List Property) :
    (ps.map unchanged).map (·.property) = ps := by
  rw [List.map_map]
  exact List.map_id ps

namespace Customiser

variable {c : Customiser} {p q : Property} {os : List Override}

/-- Makes a change as `applyOverride` does, and notes it beside the property. -/
def traceOverride (c : Customiser) (ts : List Traced) (o : Override) : List Traced :=
  editFirst (·.property.name == o.name)
    (fun t => (c.change o t.property).toOption.map fun q => ⟨q, t.changes ++ [o]⟩) ts

/-- The properties that the changes and additions of a bearer lead to, each with the changes made to
it. -/
def trace (c : Customiser) (b : Bearer) (ps : List Property) : List Traced :=
  b.overrides.foldl c.traceOverride (ps.map .unchanged) ++
    (b.additions.filterMap fun a => (c.newProperty a).toOption).map .unchanged

/-- `q` is what comes of `p` if the changes, each of which goes by the name that the property has at
its turn, are made to it in their order. -/
inductive Made (c : Customiser) (p : Property) : List Override → Property → Prop
  | start : Made c p [] p
  | more {os : List Override} {q q' : Property} (o : Override) (before : Made c p os q)
      (named : q.name = o.name) (change : c.change o q = .ok q') : Made c p (os ++ [o]) q'

/-- No change goes by the name that an earlier one leaves its property with. -/
def Independent (os : List Override) : Prop :=
  os.Pairwise fun d o => o.name ≠ d.rename.getD d.name

/-- Changes of different names are independent if none gives its property the name of another. -/
theorem independent_of_free (named : (os.map (·.name)).Nodup)
    (free : ∀ d ∈ os, ∀ o ∈ os, d.name ≠ o.name → d.rename ≠ some o.name) : Independent os := by
  refine List.Pairwise.imp_of_mem ?_ (List.pairwise_map.1 named)
  intro d o hd ho ne e
  cases hr : d.rename with
  | none => exact ne (by rw [e, hr]; rfl)
  | some n => exact free d hd o ho ne (by rw [e, hr]; rfl)

/-- A property meets at most one of several independent changes. -/
theorem Made.once (made : c.Made p os q) (independent : Independent os) :
    os = [] ∧ q = p ∨ ∃ o, os = [o] ∧ c.change o p = .ok q := by
  cases made with
  | start => exact Or.inl ⟨rfl, rfl⟩
  | more o before named change =>
    cases before with
    | start => exact Or.inr ⟨o, rfl, change⟩
    | more d earlier named' change' =>
      -- the second change goes by the name that the first one left
      have left := (change_keeps change').2
      rw [named, named'] at left
      have apart := (List.pairwise_append.1 independent).2.2
      exact absurd left (apart d (List.mem_append_right _ List.mem_cons_self) o List.mem_cons_self)

theorem foldl_traceOverride (c : Customiser) (os : List Override) (ts : List Traced)
    (s : Customised) (start : s.properties = ts.map (·.property)) :
    (os.foldl c.applyOverride s).properties =
      (os.foldl c.traceOverride ts).map (·.property) := by
  induction os generalizing ts s with
  | nil => exact start
  | cons o rest ih =>
    refine ih _ _ ?_
    rw [(applyOverride_eq c s o).1, start, traceOverride]
    refine (map_editFirst (fun _ => rfl) (fun t => ?_) ts).symm
    cases c.change o t.property <;> rfl

theorem apply_traced (c : Customiser) (b : Bearer) (ps : List Property) :
    (c.apply b ps).properties = (c.trace b ps).map (·.property) := by
  have start : ps = (ps.map Traced.unchanged).map (·.property) := (Traced.map_unchanged ps).symm
  rw [apply, (foldl_applyAddition c b.additions _).1, trace, List.map_append,
    Traced.map_unchanged, foldl_traceOverride c b.overrides _ { properties := ps } start]

/-- Each traced property is what the changes beside it, taken from `done`, made of some property of
`ps`. -/
def Accounts (c : Customiser) (ps : List Property) (done : List Override) (ts : List Traced) :
    Prop :=
  ∀ t ∈ ts, t.changes.Sublist done ∧ ∃ p ∈ ps, c.Made p t.changes t.property

theorem accounts_traceOverride {ps : List Property} {done : List Override} {ts : List Traced}
    (h : c.Accounts ps done ts) (o : Override) :
    c.Accounts ps (done ++ [o]) (c.traceOverride ts o) := by
  intro t ht
  rcases mem_editFirst ht with ht | ⟨t', ht', hit, made⟩
  · obtain ⟨sub, origin⟩ := h t ht
    exact ⟨sub.trans (List.sublist_append_left _ _), origin⟩
  · obtain ⟨sub, p, hp, before⟩ := h t' ht'
    obtain ⟨q, hq, rfl⟩ := Option.map_eq_some_iff.1 made
    refine ⟨sub.append (List.Sublist.refl _), p, hp, before.more o ?_ (toOption_eq_some_iff.1 hq)⟩
    simpa using hit

theorem accounts_foldl {ps : List Property} {os done : List Override} {ts : List Traced}
    (h : c.Accounts ps done ts) :
    c.Accounts ps (done ++ os) (os.foldl c.traceOverride ts) := by
  induction os generalizing done ts with
  | nil => simpa using h
  | cons o rest ih =>
    rw [List.append_cons]
    exact ih (accounts_traceOverride h o)

/-- A traced property is a changed property of the list, or an addition. -/
theorem trace_cases {b : Bearer} {ps : List Property} {t : Traced} (ht : t ∈ c.trace b ps) :
    (t.changes.Sublist b.overrides ∧ ∃ p ∈ ps, c.Made p t.changes t.property) ∨
      t.changes = [] ∧ ∃ a ∈ b.additions, c.newProperty a = .ok t.property := by
  rcases List.mem_append.1 ht with ht | ht
  · have start : c.Accounts ps [] (ps.map .unchanged) := by
      intro t ht
      obtain ⟨p, hp, rfl⟩ := List.mem_map.1 ht
      exact ⟨List.Sublist.refl _, p, hp, .start⟩
    exact Or.inl (accounts_foldl start t ht)
  · obtain ⟨p, hp, rfl⟩ := List.mem_map.1 ht
    obtain ⟨a, ha, made⟩ := List.mem_filterMap.1 hp
    exact Or.inr ⟨rfl, a, ha, toOption_eq_some_iff.1 made⟩

end Customiser

namespace Round

variable {r : Round} {bearer : Bearer} {request : ViewRequest} {v : View}

def changesOf (r : Round) (config : TypeName) : List Override :=
  (r.configBearer? config).elim [] (·.overrides)

def customiser (r : Round) (bearer : Bearer) (request : ViewRequest) (source : SourceType) :
    Customiser where
  target := request.target.resolve bearer.name
  source
  config := request.config.resolve bearer.name
  scope := (r.viewName bearer request).module
  library := r.library
  getters := request.getters

theorem customised_eq (r : Round) (bearer : Bearer) (request : ViewRequest) (source : SourceType)
    (ps : List Property) :
    r.customised bearer request source ps =
      match r.configBearer? (request.config.resolve bearer.name) with
      | none => { properties := ps }
      | some b => (r.customiser bearer request source).apply b ps := rfl

/-- The properties of the view of a request, each with the changes made to it. -/
def traced (r : Round) (bearer : Bearer) (request : ViewRequest) : List Traced :=
  match r.viewable bearer request with
  | .error _ => []
  | .ok source =>
    match r.startingProperties bearer request source with
    | .error _ => []
    | .ok ps =>
      match r.configBearer? (request.config.resolve bearer.name) with
      | none => ps.map .unchanged
      | some b => (r.customiser bearer request source).trace b ps

/-- A view takes over what the changes leave, if no two properties have the same name. -/
theorem assemble_ok {source : SourceType} {c : Customised}
    (h : r.assemble bearer request source c = .ok v) :
    c.aborted = none ∧ firstRepeated? [] (c.properties.map (·.name)) = none ∧
      v = {
        name := r.viewName bearer request
        target := request.target.resolve bearer.name
        config := request.config.resolve bearer.name
        request
        properties := c.properties
        errors := c.errors
        comment := source.comment } := by
  unfold assemble at h
  dsimp only at h
  split at h
  · cases h
  · rename_i whole
    split at h
    · cases h
    · rename_i none
      exact ⟨whole, none, (Except.ok.inj h).symm⟩

/-- A request that is resolved has a record to look at and properties to start from. -/
theorem resolveView_assembles (h : (r.resolveView bearer request).result = .ok v) :
    ∃ source ps, r.viewable bearer request = .ok source ∧
      r.startingProperties bearer request source = .ok ps ∧
      r.assemble bearer request source (r.customised bearer request source ps) = .ok v := by
  unfold resolveView at h
  split at h
  · cases h
  · rename_i source viewable
    split at h
    · cases h
    · rename_i ps starting
      exact ⟨source, ps, viewable, starting, h⟩

theorem resolveView_ok (h : (r.resolveView bearer request).result = .ok v) :
    ∃ source ps, r.viewable bearer request = .ok source ∧
      r.startingProperties bearer request source = .ok ps ∧
      v.properties = (r.customised bearer request source ps).properties ∧
      v.config = request.config.resolve bearer.name ∧
      v.name = r.viewName bearer request := by
  obtain ⟨source, ps, viewable, starting, assembled⟩ := resolveView_assembles h
  obtain ⟨-, -, rfl⟩ := assemble_ok assembled
  exact ⟨source, ps, viewable, starting, rfl, rfl, rfl⟩

theorem resolveView_traced (h : (r.resolveView bearer request).result = .ok v) :
    v.properties = (r.traced bearer request).map (·.property) := by
  obtain ⟨source, ps, viewable, starting, properties, -, -⟩ := resolveView_ok h
  unfold traced
  rw [properties, customised_eq, viewable]
  dsimp only
  rw [starting]
  dsimp only
  cases r.configBearer? (request.config.resolve bearer.name) with
  | none => exact (Traced.map_unchanged ps).symm
  | some b => exact (r.customiser bearer request source).apply_traced b ps

/-- Every property of a view is that of a member of the record that is viewed, as the changes beside
it left it, or an addition that no change was made to. -/
theorem traced_of_viewable {source : SourceType} {t : Traced}
    (viewable : r.viewable bearer request = .ok source) (ht : t ∈ r.traced bearer request) :
    (t.changes.Sublist (r.changesOf (request.config.resolve bearer.name)) ∧
        ∃ m ∈ source.members, (r.customiser bearer request source).Made
          (Property.ofMember m request.getters request.setters) t.changes t.property) ∨
      t.changes = [] ∧
        ∃ a, (r.customiser bearer request source).newProperty a = .ok t.property := by
  unfold traced at ht
  rw [viewable] at ht
  dsimp only at ht
  split at ht
  · exact absurd ht List.not_mem_nil
  · rename_i ps starting
    have members : ∀ p ∈ ps, ∃ m ∈ source.members,
        p = Property.ofMember m request.getters request.setters := by
      intro p hp
      obtain ⟨selection, -, h⟩ := bind_ok_iff.1 starting
      obtain rfl := Except.ok.inj h
      obtain ⟨m, hm, rfl⟩ := List.mem_map.1 hp
      exact ⟨m, (List.mem_filter.1 hm).1, rfl⟩
    split at ht
    · obtain ⟨p, hp, rfl⟩ := List.mem_map.1 ht
      obtain ⟨m, hm, rfl⟩ := members p hp
      exact Or.inl ⟨List.nil_sublist _, m, hm, .start⟩
    · rename_i b found
      rcases Customiser.trace_cases ht with ⟨sub, p, hp, made⟩ | ⟨none, a, -, made⟩
      · obtain ⟨m, hm, rfl⟩ := members p hp
        refine Or.inl ⟨?_, m, hm, made⟩
        rw [changesOf, found]
        exact sub
      · exact Or.inr ⟨none, a, made⟩

theorem traced_cases {t : Traced} (ht : t ∈ r.traced bearer request) :
    ∃ source, (t.changes.Sublist (r.changesOf (request.config.resolve bearer.name)) ∧
        ∃ m ∈ source.members, (r.customiser bearer request source).Made
          (Property.ofMember m request.getters request.setters) t.changes t.property) ∨
      t.changes = [] ∧
        ∃ a, (r.customiser bearer request source).newProperty a = .ok t.property := by
  cases viewable : r.viewable bearer request with
  | error f =>
    unfold traced at ht
    rw [viewable] at ht
    exact absurd ht List.not_mem_nil
  | ok source => exact ⟨source, traced_of_viewable viewable ht⟩

theorem traced_once {t : Traced} (ht : t ∈ r.traced bearer request)
    (independent : Customiser.Independent (r.changesOf (request.config.resolve bearer.name))) :
    t.changes.length ≤ 1 := by
  obtain ⟨source, ⟨sub, m, -, made⟩ | ⟨none, -⟩⟩ := traced_cases ht
  · rcases made.once (independent.sublist sub) with ⟨none, -⟩ | ⟨o, one, -⟩
    · simp [none]
    · simp [one]
  · simp [none]

end Round

end RecordViews
