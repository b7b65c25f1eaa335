import Mathlib.Data.List.Find
import RecordViews.Proofs.DiscoveryOrder
import RecordViews.Proofs.RelocatedRecords

/-! A round over records of one module, in another module. Each request leads to what it leads to in
the first module, moved: it is put off in favour of the same bearer, comes up for a name that was
generated before, fails, or gives the same record. -/

namespace RecordViews

open Grammar (Item Path)

variable {S T : Scope}

def Round.relocate (r : Round) (T : Scope) : Round :=
  { r with model := r.model.relocate T, bearers := r.bearers.map (·.relocate T) }

/-- All records and bearers are in the module, and functions take only records of it. -/
structure Round.In (r : Round) (S : Scope) : Prop where
  model : r.model.relocate S = r.model
  bearers : ∀ b ∈ r.bearers, b.relocate S = b
  isLocal : ∀ b ∈ r.bearers, b.isLocal = true

theorem Round.In.relocate {r : Round} (hr : r.In S) : r.relocate S = r := by
  rw [Round.relocate, hr.model, map_eq_self_iff.2 hr.bearers]

def Task.relocate (t : Task) (T : Scope) : Task :=
  match t with
  | .view b q => .view (b.relocate T) (q.relocate T)
  | .metaType b q => .metaType (b.relocate T) (q.relocate T)

theorem Selector.resolve_placed {s : Selector} {n : TypeName} (hs : s.relocate S = s)
    (hn : n.relocate S = n) : (s.resolve n).relocate S = s.resolve n := by
  rw [← resolve_relocate, hs, hn]

theorem Task.ofBearers_relocate (bearers : List Bearer) (T : Scope) :
    ofBearers (bearers.map (·.relocate T)) = (ofBearers bearers).map (·.relocate T) := by
  simp only [ofBearers, List.flatMap_map, List.map_flatMap]
  refine List.flatMap_congr fun b _ => ?_
  change (b.requests.map (·.relocate T)).map (view (b.relocate T)) ++
    (b.metas.map (·.relocate T)).map (metaType (b.relocate T)) = _
  rw [ofBearer, List.map_append, List.map_map, List.map_map, List.map_map, List.map_map]
  rfl

namespace Round

variable {r : Round} {b : Bearer} {q : ViewRequest} {m : MetaRequest}

theorem viewName_relocate (r : Round) (b : Bearer) (q : ViewRequest) (T : Scope) :
    (r.relocate T).viewName (b.relocate T) (q.relocate T) = (r.viewName b q).relocate T := by
  unfold viewName ViewRequest.generated
  rw [← generatedName_relocate, ← Selector.resolve_relocate]
  rfl

theorem metaName_relocate (r : Round) (b : Bearer) (m : MetaRequest) (T : Scope) :
    (r.relocate T).metaName (b.relocate T) (m.relocate T) = (r.metaName b m).relocate T := by
  unfold metaName MetaRequest.generated
  rw [← generatedName_relocate, ← Selector.resolve_relocate]
  rfl

theorem viewName_placed (r : Round) (hb : b.relocate S = b) (hq : q.relocate S = q) :
    (r.viewName b q).relocate S = r.viewName b q := by
  rw [← viewName_relocate, hb, hq]
  rfl

theorem metaName_placed (r : Round) (hb : b.relocate S = b) (hm : m.relocate S = m) :
    (r.metaName b m).relocate S = r.metaName b m := by
  rw [← metaName_relocate, hb, hm]
  rfl

theorem configBearer?_relocate (hr : r.In S) {n : TypeName} (hn : n.relocate S = n) (T : Scope) :
    (r.relocate T).configBearer? (n.relocate T) = (r.configBearer? n).map (·.relocate T) := by
  unfold configBearer?
  change (r.bearers.map (·.relocate T)).find? _ = _
  rw [List.find?_map]
  congr 1
  exact List.find?_congr fun b hb =>
    TypeName.relocate_beq (Bearer.in_of_relocate (hr.bearers b hb)).name hn

theorem find?_relocate (hr : r.In S) {n : TypeName} (hn : n.relocate S = n) (T : Scope) :
    (r.relocate T).model.find? (n.relocate T) = (r.model.find? n).map (·.relocate T) :=
  TypeName.findIn?_relocate (fun T t => SourceType.relocate t T) (fun _ _ => rfl)
    (map_eq_self_iff.1 (congrArg Model.types hr.model)) hn

theorem checkGenerated_together (name target : TypeName) (T : Scope) :
    Together Failure.Alike Eq (checkGenerated name target)
      (checkGenerated (name.relocate T) (target.relocate T)) :=
  checkIdentifier_together _ rfl

theorem target_relocate (b : Bearer) (q : ViewRequest) (T : Scope) :
    (q.relocate T).target.resolve (b.relocate T).name = (q.target.resolve b.name).relocate T :=
  Selector.resolve_relocate ..

theorem config_relocate (b : Bearer) (q : ViewRequest) (T : Scope) :
    (q.relocate T).config.resolve (b.relocate T).name = (q.config.resolve b.name).relocate T :=
  Selector.resolve_relocate ..

section Placed

variable (hr : r.In S) (hb : b.relocate S = b) (hq : q.relocate S = q)

include hb hq

theorem target_placed : (q.target.resolve b.name).relocate S = q.target.resolve b.name :=
  Selector.resolve_placed (congrArg ViewRequest.target hq) (Bearer.in_of_relocate hb).name

theorem config_placed : (q.config.resolve b.name).relocate S = q.config.resolve b.name :=
  Selector.resolve_placed (congrArg ViewRequest.config hq) (Bearer.in_of_relocate hb).name

include hr

theorem viewable_together (T : Scope) :
    Together Failure.Alike (fun t t' => t' = t.relocate T) (r.viewable b q)
      ((r.relocate T).viewable (b.relocate T) (q.relocate T)) := by
  have target := target_placed hb hq
  have config := config_placed hb hq
  unfold viewable
  dsimp only
  rw [viewName_relocate, target_relocate, config_relocate, find?_relocate hr target,
    find?_relocate hr config, configBearer?_relocate hr config]
  refine (checkGenerated_together _ _ T).bind fun _ _ _ => ?_
  cases r.model.find? (q.target.resolve b.name) with
  | none => exact .fail rfl
  | some t =>
    refine .ite Iff.rfl (.fail rfl) (.ite Iff.rfl (.fail rfl) (.ite ?_ (.fail rfl) (.give rfl)))
    simp only [Option.isNone_map]

end Placed

theorem contributing_relocate (hr : r.In S) {target config : TypeName}
    (ht : target.relocate S = target) (hc : config.relocate S = config) (T : Scope) :
    contributing (r.relocate T).bearers (target.relocate T) (config.relocate T) =
      (contributing r.bearers target config).map (·.relocate T) := by
  unfold contributing
  change (r.bearers.map (·.relocate T)).flatMap _ = _
  rw [List.flatMap_map, List.map_flatMap]
  refine List.flatMap_congr fun b hb => ?_
  have hb := hr.bearers b hb
  change (b.requests.map (·.relocate T)).filter _ = _
  rw [List.filter_map]
  congr 1
  refine List.filter_congr fun q hq => ?_
  have hq := (Bearer.in_of_relocate hb).requests q hq
  rw [Function.comp_apply, target_relocate, config_relocate,
    TypeName.relocate_beq (target_placed hb hq) ht, TypeName.relocate_beq (config_placed hb hq) hc]

theorem ofRequests_relocate (requests : List ViewRequest) (T : Scope) :
    Selection.ofRequests (requests.map (·.relocate T)) = Selection.ofRequests requests := by
  unfold Selection.ofRequests
  rw [List.foldlM_map]
  rfl

theorem placed_of_starting {t : SourceType} {ps : List Property}
    (h : r.startingProperties b q t = .ok ps) (T : Scope) : ps.map (·.relocate T) = ps := by
  obtain ⟨selection, -, h⟩ := bind_ok_iff.1 h
  obtain rfl := Except.ok.inj h
  rw [List.map_map]
  rfl

section Placed

variable (hr : r.In S) (hb : b.relocate S = b) (hq : q.relocate S = q)

include hr hb hq

theorem startingProperties_relocate (t : SourceType) (T : Scope) :
    (r.relocate T).startingProperties (b.relocate T) (q.relocate T) (t.relocate T) =
      r.startingProperties b q t := by
  unfold startingProperties
  dsimp only
  rw [target_relocate, config_relocate,
    contributing_relocate hr (target_placed hb hq) (config_placed hb hq)]
  unfold baseProperties
  rw [ofRequests_relocate]
  rfl

theorem customised_moves (t : SourceType) (ps : List Property) (T : Scope) :
    (r.customised b q t ps).Moves T
      ((r.relocate T).customised (b.relocate T) (q.relocate T) (t.relocate T)
        (ps.map (·.relocate T))) := by
  have config := config_placed hb hq
  unfold customised
  dsimp only
  rw [config_relocate, target_relocate, viewName_relocate, configBearer?_relocate hr config]
  cases found : r.configBearer? (q.config.resolve b.name) with
  | none => exact ⟨rfl, rfl, rfl, rfl⟩
  | some b' =>
    have inside := List.mem_of_find?_eq_some found
    exact Customiser.apply_moves
      ⟨target_placed hb hq, TypeName.relocate_eq_self_iff.1 (r.viewName_placed hb hq)⟩
      (hr.bearers b' inside) (hr.isLocal b' inside) ps T

end Placed

end Round

def View.Moves (T : Scope) (v v' : View) : Prop :=
  ∃ errors, errors.length = v.errors.length ∧ v' = { v.relocate T with errors }

/-- Both come to a view that has moved, or to none, and report as much. -/
structure Resolved.Moves {α : Type} (rel : α → α → Prop) (x y : Resolved α) : Prop where
  result : Together Failure.Alike rel x.result y.result
  diagnostics : y.diagnostics.map (·.severity) = x.diagnostics.map (·.severity)

namespace Round

variable {r : Round} {b : Bearer} {q : ViewRequest} (hr : r.In S) (hb : b.relocate S = b)
  (hq : q.relocate S = q)

theorem assemble_together (r : Round) (b : Bearer) (q : ViewRequest) (t : SourceType)
    {c c' : Customised} (h : c.Moves T c') :
    Together Failure.Alike (View.Moves T) (r.assemble b q t c)
      ((r.relocate T).assemble (b.relocate T) (q.relocate T) (t.relocate T) c') := by
  have names : c'.properties.map (·.name) = c.properties.map (·.name) := by
    rw [h.properties, List.map_map]
    rfl
  unfold assemble
  dsimp only
  rw [names, viewName_relocate, target_relocate, config_relocate, h.properties, h.aborted]
  split
  · exact .fail rfl
  · split
    · exact .fail rfl
    · exact .give ⟨c'.errors, h.errors, rfl⟩

include hr hb hq

theorem resolveView_moves (T : Scope) :
    (r.resolveView b q).Moves (View.Moves T)
      ((r.relocate T).resolveView (b.relocate T) (q.relocate T)) := by
  have viewed := viewable_together hr hb hq T
  unfold resolveView
  generalize r.viewable b q = x at viewed
  generalize (r.relocate T).viewable (b.relocate T) (q.relocate T) = y at viewed
  cases viewed with
  | fail same => exact ⟨.fail same, rfl⟩
  | @give t t' same =>
    subst same
    dsimp only
    rw [startingProperties_relocate hr hb hq]
    cases starts : r.startingProperties b q t with
    | error f => exact ⟨.fail rfl, rfl⟩
    | ok ps =>
      have moved := customised_moves hr hb hq t ps T
      rw [placed_of_starting starts] at moved
      exact ⟨assemble_together r b q t moved, moved.diagnostics⟩

/-- A view of records of the module is in the module. -/
theorem in_of_resolveView {v : View} (resolved : (r.resolveView b q).result = .ok v) : v.In S := by
  have moved := (resolveView_moves hr hb hq S).result
  rw [hr.relocate, hb, hq, resolved] at moved
  cases moved with
  | give h =>
    obtain ⟨errors, -, h⟩ := h
    exact ⟨(congrArg View.name h).symm, (congrArg View.target h).symm,
      map_eq_self_iff.1 (congrArg View.properties h).symm⟩

omit hq in
theorem resolveMeta_together {m : MetaRequest} (hm : m.relocate S = m) (T : Scope) :
    Together Failure.Alike (fun m m' => m' = m.relocate T) (r.resolveMeta b m)
      ((r.relocate T).resolveMeta (b.relocate T) (m.relocate T)) := by
  have named := (Bearer.in_of_relocate hb).name
  have target := Selector.resolve_placed (congrArg MetaRequest.target hm) named
  have targeted : (m.relocate T).target.resolve (b.relocate T).name =
      (m.target.resolve b.name).relocate T := Selector.resolve_relocate ..
  unfold resolveMeta
  dsimp only
  rw [metaName_relocate, targeted, find?_relocate hr target]
  refine (checkGenerated_together _ _ T).bind fun _ _ _ => ?_
  cases r.model.find? (m.target.resolve b.name) with
  | none => exact .fail rfl
  | some t => exact .ite Iff.rfl (.fail rfl) (.give rfl)

end Round

/-- Both are the tokens of a view, or of a meta type, and its parts are the same in both, texts left
out. -/
inductive Tokens.Alike (derives : List Path) : Tokens → Tokens → Prop
  | record {g g' : GeneratedRecord} (h : g'.withoutTexts = g.withoutTexts) :
    Alike derives (g.tokens derives) (g'.tokens derives)
  | constants {g g' : GeneratedConstants} (h : g'.withoutTexts = g.withoutTexts) :
    Alike derives g.tokens g'.tokens

namespace Task

variable {r : Round} {t : Task}

inductive In (S : Scope) : Task → Prop
  | view {b : Bearer} {q : ViewRequest} (hb : b.relocate S = b) (hq : q.relocate S = q) :
    In S (.view b q)
  | metaType {b : Bearer} {m : MetaRequest} (hb : b.relocate S = b) (hm : m.relocate S = m) :
    In S (.metaType b m)

theorem in_of_mem {bearers : List Bearer} (h : ∀ b ∈ bearers, b.relocate S = b)
    (ht : t ∈ ofBearers bearers) : t.In S := by
  obtain ⟨b, hb, ht⟩ := List.mem_flatMap.1 ht
  have placed := h b hb
  rcases List.mem_append.1 ht with ht | ht
  · obtain ⟨q, hq, rfl⟩ := List.mem_map.1 ht
    exact .view placed ((Bearer.in_of_relocate placed).requests q hq)
  · obtain ⟨m, hm, rfl⟩ := List.mem_map.1 ht
    exact .metaType placed ((Bearer.in_of_relocate placed).metas m hm)

theorem target_relocate (t : Task) (T : Scope) : (t.relocate T).target = t.target.relocate T := by
  cases t <;> exact Selector.resolve_relocate ..

theorem generated_relocate (r : Round) (t : Task) (T : Scope) :
    (t.relocate T).generated (r.relocate T) = (t.generated r).relocate T := by
  cases t with
  | view b q => exact r.viewName_relocate b q T
  | metaType b m => exact r.metaName_relocate b m T

theorem bearer_relocate (t : Task) (T : Scope) :
    (t.relocate T).bearer.name = t.bearer.name.relocate T := by
  cases t <;> rfl

theorem In.relocate (h : t.In S) : t.relocate S = t := by
  cases h with
  | view hb hq => rw [Task.relocate, hb, hq]
  | metaType hb hm => rw [Task.relocate, hb, hm]

theorem In.target (h : t.In S) : t.target.relocate S = t.target := by
  rw [← target_relocate, h.relocate]

theorem In.bearer (h : t.In S) : t.bearer.name.relocate S = t.bearer.name := by
  rw [← bearer_relocate, h.relocate]

theorem In.generated (h : t.In S) (r : Round) : (t.generated r).relocate S = t.generated r := by
  cases h with
  | view hb hq => exact r.viewName_placed hb hq
  | metaType hb hm => exact r.metaName_placed hb hm

theorem any_congr_mem {α : Type} {l : List α} {p q : α → Bool} (h : ∀ a ∈ l, p a = q a) :
    l.any p = l.any q := by
  rw [Bool.eq_iff_iff, List.any_eq_true, List.any_eq_true]
  exact exists_congr fun a => and_congr_right fun ha => by rw [h a ha]

/-- Who comes first among the bearers that ask does not depend on the module. -/
theorem first?_relocate {bearers : List Bearer} (h : ∀ b ∈ bearers, b.relocate S = b)
    {asks asks' : Bearer → Bool} (same : ∀ b ∈ bearers, asks' (b.relocate T) = asks b) :
    TypeName.first? (((bearers.map (·.relocate T)).filter asks').map (·.name)) =
      (TypeName.first? ((bearers.filter asks).map (·.name))).map (·.relocate T) := by
  rw [List.filter_map, List.map_map, List.filter_congr (q := asks) (by simpa using same)]
  have named : ∀ n ∈ (bearers.filter asks).map (·.name), n.relocate S = n := by
    intro n hn
    obtain ⟨b, hb, rfl⟩ := List.mem_map.1 hn
    exact (Bearer.in_of_relocate (h b (List.mem_of_mem_filter hb))).name
  rw [← TypeName.first?_relocate named, List.map_map]
  rfl

theorem winner?_relocate (hr : r.In S) (ht : t.In S) (T : Scope) :
    (t.relocate T).winner? (r.relocate T) = (t.winner? r).map (·.relocate T) := by
  have target := ht.target
  cases ht with
  | @view b' q' hb' hq' =>
    have moved : (view (b'.relocate T) (q'.relocate T)).target = _ := target_relocate (view b' q') T
    refine first?_relocate hr.bearers fun b hb => ?_
    have placed := Bearer.in_of_relocate (hr.bearers b hb)
    rw [moved]
    unfold Bearer.targets
    change (b.requests.map (·.relocate T)).any _ = _
    rw [List.any_map]
    refine any_congr_mem fun q hq => ?_
    rw [Function.comp_apply, Round.target_relocate]
    have placed := Round.target_placed (hr.bearers b hb) (placed.requests q hq)
    exact TypeName.relocate_beq placed target
  | @metaType b' m' hb' hm' =>
    have moved : (metaType (b'.relocate T) (m'.relocate T)).target = _ :=
      target_relocate (metaType b' m') T
    refine first?_relocate hr.bearers fun b hb => ?_
    have placed := Bearer.in_of_relocate (hr.bearers b hb)
    rw [moved]
    unfold Bearer.describes
    change (b.metas.map (·.relocate T)).any _ = _
    rw [List.any_map]
    refine any_congr_mem fun m hm => ?_
    have there :=
      Selector.resolve_placed (congrArg MetaRequest.target (placed.metas m hm)) placed.name
    have asked : (m.relocate T).target.resolve (b.relocate T).name =
        (m.target.resolve b.name).relocate T := Selector.resolve_relocate ..
    rw [Function.comp_apply, asked]
    exact TypeName.relocate_beq there target

theorem winner?_placed (hr : r.In S) (ht : t.In S) {w : TypeName} (h : t.winner? r = some w) :
    w.relocate S = w := by
  have same := winner?_relocate hr ht S
  rw [hr.relocate, ht.relocate, h] at same
  exact (Option.some.inj same).symm

theorem deferredTo?_relocate (hr : r.In S) (ht : t.In S) (T : Scope) :
    (t.relocate T).deferredTo? (r.relocate T) = (t.deferredTo? r).map (·.relocate T) := by
  unfold deferredTo?
  rw [winner?_relocate hr ht, bearer_relocate]
  cases wins : t.winner? r with
  | none => rfl
  | some w =>
    have same := TypeName.relocate_beq (T := T) (winner?_placed hr ht wins) ht.bearer
    simp only [Option.map_some, Option.filter_some, bne, same]
    split <;> rfl

theorem render_moves (hr : r.In S) (ht : t.In S) (derives : List Path) (T : Scope) :
    (t.render r (.ofDerives derives)).Moves (Tokens.Alike derives)
      ((t.relocate T).render (r.relocate T) (.ofDerives derives)) := by
  cases ht with
  | view hb hq =>
    have resolved := Round.resolveView_moves hr hb hq T
    refine ⟨?_, resolved.diagnostics⟩
    refine (resolved.result.and_left fun v => Round.in_of_resolveView hr hb hq).bind
      fun v v' both => ?_
    obtain ⟨inside, errors, as_many, rfl⟩ := both
    exact (GeneratedRecord.ofView_withoutTexts inside T as_many).map fun g g' => .record
  | metaType hb hm =>
    refine ⟨(Round.resolveMeta_together hr hb hm T).bind fun m m' same => ?_, rfl⟩
    subst same
    exact (GeneratedConstants.ofMetaType_together m T).map fun g g' => .constants

end Task

end RecordViews
