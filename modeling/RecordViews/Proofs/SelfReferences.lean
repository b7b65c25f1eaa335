import Mathlib.Data.List.Forall2
import RecordViews.Proofs.DiscoveryOrder

/-! A request may refer to its bearer or give the name of it. A round reads every reference as the
name that it stands for, so what comes of the round does not change when references to bearers are
spelled out. It is enough to spell out all of them: two rounds that differ in some references only
are then the same. -/

namespace RecordViews

variable {σ : Type}

/-- The second reference is the first, or the name of the bearer that the first one refers to. -/
inductive Selector.Spelled (bearer : TypeName) : Selector → Selector → Prop
  | same (s : Selector) : Spelled bearer s s
  | bearer : Spelled bearer .itself (.named bearer)

/-- The second request is the first, its references spelled out or not. -/
structure ViewRequest.Spelled (bearer : TypeName) (q q' : ViewRequest) : Prop where
  target : q.target.Spelled bearer q'.target
  config : q.config.Spelled bearer q'.config
  others : q' = { q with target := q'.target, config := q'.config }

structure MetaRequest.Spelled (bearer : TypeName) (q q' : MetaRequest) : Prop where
  target : q.target.Spelled bearer q'.target
  others : q' = { q with target := q'.target }

/-- The second bearer carries the requests of the first, their references spelled out or not. -/
structure Bearer.Spelled (b b' : Bearer) : Prop where
  requests : List.Forall₂ (ViewRequest.Spelled b.name) b.requests b'.requests
  metas : List.Forall₂ (MetaRequest.Spelled b.name) b.metas b'.metas
  others : b' = { b with requests := b'.requests, metas := b'.metas }

def Selector.explicit (bearer : TypeName) (s : Selector) : Selector :=
  .named (s.resolve bearer)

def ViewRequest.explicit (bearer : TypeName) (q : ViewRequest) : ViewRequest :=
  { q with target := q.target.explicit bearer, config := q.config.explicit bearer }

def MetaRequest.explicit (bearer : TypeName) (q : MetaRequest) : MetaRequest :=
  { q with target := q.target.explicit bearer }

def Bearer.explicit (b : Bearer) : Bearer :=
  { b with
    requests := b.requests.map (ViewRequest.explicit b.name)
    metas := b.metas.map (MetaRequest.explicit b.name) }

theorem Selector.Spelled.explicit_eq {bearer : TypeName} {s s' : Selector}
    (h : s.Spelled bearer s') : s'.explicit bearer = s.explicit bearer := by
  cases h <;> rfl

theorem ViewRequest.Spelled.explicit_eq {bearer : TypeName} {q q' : ViewRequest}
    (h : q.Spelled bearer q') : q'.explicit bearer = q.explicit bearer := by
  obtain ⟨target, config, others⟩ := h
  rw [others]
  simp only [explicit, target.explicit_eq, config.explicit_eq]

theorem MetaRequest.Spelled.explicit_eq {bearer : TypeName} {q q' : MetaRequest}
    (h : q.Spelled bearer q') : q'.explicit bearer = q.explicit bearer := by
  obtain ⟨target, others⟩ := h
  rw [others]
  simp only [explicit, target.explicit_eq]

/-- Lists that are beside each other by a relation are the same under a function that it keeps. -/
theorem map_eq_of_forall₂ {α β : Type} {R : α → α → Prop} {f : α → β}
    (kept : ∀ a b, R a b → f b = f a) {l l' : List α} (beside : List.Forall₂ R l l') :
    l'.map f = l.map f := by
  induction beside with
  | nil => rfl
  | cons first _ ih => rw [List.map_cons, List.map_cons, kept _ _ first, ih]

theorem Bearer.Spelled.explicit_eq {b b' : Bearer} (h : b.Spelled b') :
    b'.explicit = b.explicit := by
  obtain ⟨requests, metas, others⟩ := h
  have views := map_eq_of_forall₂ (fun _ _ spelled => spelled.explicit_eq) requests
  have lists := map_eq_of_forall₂ (fun _ _ spelled => spelled.explicit_eq) metas
  rw [others]
  simp only [explicit, views, lists]

/-- The renderer does not look at the references of the request that a view is made for. -/
def Renderer.IgnoresReferences (renderer : Renderer) : Prop :=
  ∀ (v : View) (target config : Selector),
    renderer.view { v with request := { v.request with target, config } } = renderer.view v

theorem GeneratedRecord.accessors_request (v : View) (q : ViewRequest) (slots : List Slot) :
    accessors { v with request := q } slots = accessors v slots := by
  induction slots with
  | nil => rfl
  | cons s rest ih =>
    rw [accessors, accessors, ih]
    rfl

theorem Renderer.ofDerives_ignoresReferences (derives : List Grammar.Path) :
    (ofDerives derives).IgnoresReferences := by
  intro v target config
  refine congrArg (Except.map _) ?_
  unfold GeneratedRecord.ofView
  simp only [GeneratedRecord.accessors_request]
  rfl

namespace Selection

/-- What a request chooses does not depend on its references. -/
theorem ofRequests_map {f : ViewRequest → ViewRequest}
    (kept : ∀ s q, add s (f q) = add s q) (qs : List ViewRequest) :
    ofRequests (qs.map f) = ofRequests qs := by
  rw [ofRequests, ofRequests, List.foldlM_map]
  simp only [kept]

end Selection

def ViewRequest.unreferenced (q : ViewRequest) : ViewRequest :=
  { q with target := .itself, config := .itself }

theorem contributing_explicit (bearers : List Bearer) (target config : TypeName) :
    (contributing (bearers.map Bearer.explicit) target config).map ViewRequest.unreferenced =
      (contributing bearers target config).map ViewRequest.unreferenced := by
  simp only [contributing, List.flatMap_map, List.map_flatMap, Bearer.explicit, List.filter_map,
    List.map_map]
  rfl

theorem baseProperties_explicit (source : SourceType) (bearers : List Bearer)
    (target config bearer : TypeName) (q : ViewRequest) :
    baseProperties source (contributing (bearers.map Bearer.explicit) target config)
        (q.explicit bearer) =
      baseProperties source (contributing bearers target config) q := by
  have unreferenced (qs : List ViewRequest) :
      Selection.ofRequests (qs.map ViewRequest.unreferenced) = Selection.ofRequests qs :=
    Selection.ofRequests_map (f := ViewRequest.unreferenced) (fun _ _ => rfl) qs
  unfold baseProperties
  rw [← unreferenced, contributing_explicit, unreferenced]
  rfl

def Task.explicit : Task → Task
  | .view b q => .view b.explicit (q.explicit b.name)
  | .metaType b q => .metaType b.explicit (q.explicit b.name)

theorem Task.ofBearers_explicit (bearers : List Bearer) :
    ofBearers (bearers.map Bearer.explicit) = (ofBearers bearers).map explicit := by
  simp only [ofBearers, ofBearer, Bearer.explicit, List.flatMap_map, List.map_flatMap,
    List.map_append, List.map_map]
  rfl

namespace Round

def explicit (r : Round) : Round :=
  r.withBearers (r.bearers.map Bearer.explicit)

variable {r : Round} {renderer : Renderer}

theorem deferredTo?_explicit (t : Task) : t.explicit.deferredTo? r.explicit = t.deferredTo? r := by
  have asking (kind : UnitKind) (target : TypeName) :
      Bearer.asking kind target ∘ Bearer.explicit = Bearer.asking kind target := by
    funext b
    cases kind with
    | view => exact List.any_map
    | metaType => exact List.any_map
  have kind : t.explicit.kind = t.kind := by cases t <;> rfl
  have target : t.explicit.target = t.target := by cases t <;> rfl
  have name : t.explicit.bearer.name = t.bearer.name := by cases t <;> rfl
  have winner : t.explicit.winner? r.explicit = t.winner? r := by
    rw [Task.winner?_eq, Task.winner?_eq, kind, target, explicit, withBearers, List.filter_map,
      List.map_map, asking]
    rfl
  rw [Task.deferredTo?, Task.deferredTo?, winner, name]

/-- The view has the request that it is made for with the references spelled out, and is the same
otherwise. -/
theorem resolveView_explicit (b : Bearer) (q : ViewRequest) :
    r.explicit.resolveView b.explicit (q.explicit b.name) =
      { r.resolveView b q with
        result := (r.resolveView b q).result.map fun v =>
          { v with request := v.request.explicit b.name } } := by
  have found (config : TypeName) :
      r.explicit.configBearer? config = (r.configBearer? config).map Bearer.explicit :=
    List.find?_map ..
  have viewable : r.explicit.viewable b.explicit (q.explicit b.name) = r.viewable b q := by
    simp only [Round.viewable, found, Option.isNone_map]
    rfl
  have starting (source : SourceType) :
      r.explicit.startingProperties b.explicit (q.explicit b.name) source =
        r.startingProperties b q source :=
    baseProperties_explicit source r.bearers _ _ b.name q
  have customised (source : SourceType) (ps : List Property) :
      r.explicit.customised b.explicit (q.explicit b.name) source ps =
        r.customised b q source ps := by
    have config : (q.explicit b.name).config.resolve b.explicit.name =
        q.config.resolve b.name := rfl
    unfold Round.customised
    dsimp only
    rw [config, found]
    cases r.configBearer? (q.config.resolve b.name) <;> rfl
  unfold resolveView
  rw [viewable]
  cases r.viewable b q with
  | error f => rfl
  | ok source =>
    dsimp only
    rw [starting]
    cases r.startingProperties b q source with
    | error f => rfl
    | ok ps =>
      dsimp only
      rw [customised]
      congr 1
      unfold assemble
      dsimp only
      split
      · rfl
      · split <;> rfl

theorem mirrors_explicit (ignores : renderer.IgnoresReferences) (t : Task) :
    r.Mirrors r.explicit renderer t t.explicit where
  bearer := by cases t <;> rfl
  kind := by cases t <;> rfl
  target := by cases t <;> rfl
  generated := by cases t <;> rfl
  deferredTo := deferredTo?_explicit t
  rendered := by
    cases t with
    | view b q =>
      simp only [Task.explicit, Task.render, resolveView_explicit]
      congr 1
      cases (r.resolveView b q).result with
      | error f => rfl
      | ok v => exact ignores v _ _
    | metaType b q => rfl

theorem run_explicit (ignores : renderer.IgnoresReferences) (sink : Sink σ) (g : GeneratedNames)
    (s : σ) : r.explicit.run renderer sink g s = r.run renderer sink g s := by
  have step (p : Progress σ) (t : Task) :
      r.explicit.proceed renderer sink p t.explicit = r.proceed renderer sink p t := by
    rw [proceed, proceed, (mirrors_explicit ignores t).step sink p]
  have tasks : Task.ofBearers r.explicit.bearers = (Task.ofBearers r.bearers).map Task.explicit :=
    Task.ofBearers_explicit r.bearers
  rw [run, run, tasks, List.foldl_map]
  simp only [step]

/-- When references of requests to their own bearer are spelled out, here and there or all of them,
a round changes in nothing: neither in its outcomes and diagnostics, nor in what the sink is given
and the names that are generated after it. This takes a renderer that does not look at the
references of a request, as the one of generated records does not. -/
theorem run_spelled {bearers : List Bearer}
    (spelled : List.Forall₂ Bearer.Spelled r.bearers bearers) :
    (∀ renderer : Renderer, renderer.IgnoresReferences →
      ∀ (sink : Sink σ) (g : GeneratedNames) (s : σ),
        (r.withBearers bearers).run renderer sink g s = r.run renderer sink g s) ∧
    ∀ derives, (Renderer.ofDerives derives).IgnoresReferences := by
  refine ⟨fun renderer ignores sink g s => ?_, Renderer.ofDerives_ignoresReferences⟩
  have same : (r.withBearers bearers).explicit = r.explicit :=
    congrArg r.withBearers (map_eq_of_forall₂ (fun _ _ h => h.explicit_eq) spelled)
  calc (r.withBearers bearers).run renderer sink g s
    _ = (r.withBearers bearers).explicit.run renderer sink g s :=
      (run_explicit ignores sink g s).symm
    _ = r.explicit.run renderer sink g s := by rw [same]
    _ = r.run renderer sink g s := run_explicit ignores sink g s

end Round

/-- A person asks for a view and a meta type of itself. Another bearer has the view show one more
member. -/
def household (target config : Selector) : Round where
  library := { leading := true, segments := [{ name := "view_synth" }] }
  model := ⟨[{
    name := ⟨["crate"], "Person"⟩
    members := [
      .field "name" (.path (.ofNames ["String"])),
      .field "age" (.path (.ofNames ["u32"]))] }]⟩
  bearers := [
    { name := ⟨["crate"], "Person"⟩
      requests := [{ target, config, includes := ["name"] }]
      metas := [{}] },
    { name := ⟨["crate"], "Record"⟩
      requests := [{
        target := .named ⟨["crate"], "Person"⟩
        config := .named ⟨["crate"], "Person"⟩
        includes := ["age"] }] }]

theorem household_spelled_alike :
    let said := household .itself .itself
    let spelled := household (.named ⟨["crate"], "Person"⟩) .itself
    List.Forall₂ Bearer.Spelled said.bearers spelled.bearers ∧
      spelled.run (Renderer.ofDerives []) Sink.memory {} [] =
        said.run (Renderer.ofDerives []) Sink.memory {} [] ∧
      (said.run (Renderer.ofDerives []) Sink.memory {} []).outcomes.map (·.state) =
        [.rendered, .rendered, .deferred ⟨["crate"], "Person"⟩] := by
  intro said spelled
  have person : Bearer.Spelled said.bearers[0] spelled.bearers[0] :=
    ⟨.cons ⟨.bearer, .same _, rfl⟩ .nil, .cons ⟨.same _, rfl⟩ .nil, rfl⟩
  have other : Bearer.Spelled said.bearers[1] spelled.bearers[1] :=
    ⟨.cons ⟨.same _, .same _, rfl⟩ .nil, .nil, rfl⟩
  have beside : List.Forall₂ Bearer.Spelled said.bearers spelled.bearers :=
    .cons person (.cons other .nil)
  obtain ⟨alike, ignores⟩ := Round.run_spelled beside
  exact ⟨beside, alike _ (ignores []) Sink.memory {} [], by decide +kernel⟩

end RecordViews
