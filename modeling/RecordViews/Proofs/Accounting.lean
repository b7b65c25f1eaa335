import RecordViews.Proofs.Histories
import RecordViews.Proofs.RoundStep

/-! What a round reports. `Tallies` is kept by every change and addition of a view: a property that
is dropped leaves one message and one error, and what else is noted is about changes of members that
are not there. `Accounted` lists what each way in which a request can end adds to the diagnostics,
and a round adds this for every request in turn. So it has errors exactly if a request failed or a
property was dropped. -/

namespace RecordViews

namespace Customiser

/-- Of `total` properties, those that are not there were dropped. Each left a message and an error,
in order, and the warnings are about some of the changes `os`. -/
structure Tallies (c : Customiser) (os : List Override) (total : Nat) (s : Customised) : Prop where
  count : s.properties.length + s.errors.length = total
  errors : s.diagnostics.filter (·.isError) = s.errors.map (.error c.config c.target)
  warnings : ∀ d ∈ s.diagnostics, d.isError = false → ∃ o ∈ os, c.source.member? o.name = none ∧
    d = .warning c.config c.target (c.missingMessage o.name)

namespace Tallies

variable {c : Customiser} {os : List Override} {total total' : Nat} {s : Customised}
  {ps : List Property}

theorem start (c : Customiser) (os : List Override) (ps : List Property) :
    c.Tallies os ps.length { properties := ps } :=
  ⟨rfl, rfl, by simp⟩

theorem replace (h : c.Tallies os total s) (count : ps.length + s.errors.length = total') :
    c.Tallies os total' { s with properties := ps } :=
  ⟨count, h.errors, h.warnings⟩

theorem warn (h : c.Tallies os total s) {o : Override} (ho : o ∈ os)
    (absent : c.source.member? o.name = none) :
    c.Tallies os total { s with
      diagnostics := s.diagnostics ++ [.warning c.config c.target (c.missingMessage o.name)] } := by
  refine ⟨h.count, ?_, ?_⟩
  · rw [List.filter_append, h.errors]
    exact List.append_nil _
  · intro d hd harmless
    rcases List.mem_append.1 hd with hd | hd
    · exact h.warnings d hd harmless
    · exact ⟨o, ho, absent, List.mem_singleton.1 hd⟩

theorem drop (h : c.Tallies os total s) (ps : List Property) (f : Failure)
    (count : ps.length + (s.errors.length + 1) = total') :
    c.Tallies os total' (c.drop { s with properties := ps } f) := by
  refine ⟨?_, ?_, ?_⟩
  · rw [← count, Customiser.drop, List.length_append]
    rfl
  · rw [Customiser.drop, List.filter_append, h.errors, List.map_append]
    rfl
  · intro d hd harmless
    rcases List.mem_append.1 hd with hd | hd
    · exact h.warnings d hd harmless
    · obtain rfl := List.mem_singleton.1 hd
      cases harmless

theorem applyOverride (h : c.Tallies os total s) {o : Override} (ho : o ∈ os) :
    c.Tallies os total (c.applyOverride s o) := by
  unfold Customiser.applyOverride
  split
  · split
    · exact h
    · rename_i absent
      exact h.warn ho (by simpa using absent)
  · rename_i i found
    split
    · exact h
    · rename_i p at_i
      have inside : i < s.properties.length := (List.getElem?_eq_some_iff.1 at_i).1
      have count := h.count
      split
      · exact h.replace (by rw [List.length_set, count])
      · exact h.drop _ _ (by rw [List.length_eraseIdx_of_lt inside]; omega)

theorem applyAddition (h : c.Tallies os total s) (a : Addition) :
    c.Tallies os (total + 1) (c.applyAddition s a) := by
  have count := h.count
  unfold Customiser.applyAddition
  split
  · exact h.replace (by rw [List.length_append, List.length_singleton]; omega)
  · exact h.drop s.properties _ (by omega)

theorem foldl_applyOverride (h : c.Tallies os total s) {done : List Override}
    (sub : ∀ o ∈ done, o ∈ os) : c.Tallies os total (done.foldl c.applyOverride s) := by
  induction done generalizing s with
  | nil => exact h
  | cons o rest ih =>
    exact ih (h.applyOverride (sub o List.mem_cons_self)) fun o ho =>
      sub o (List.mem_cons_of_mem _ ho)

theorem foldl_applyAddition (h : c.Tallies os total s) (as : List Addition) :
    c.Tallies os (total + as.length) (as.foldl c.applyAddition s) := by
  induction as generalizing s total with
  | nil => exact h
  | cons a rest ih =>
    rw [List.length_cons, Nat.add_comm rest.length, ← Nat.add_assoc]
    exact ih (h.applyAddition a)

end Tallies

theorem apply_tallies (c : Customiser) (b : Bearer) (ps : List Property) :
    c.Tallies b.overrides (ps.length + b.additions.length) (c.apply b ps) :=
  ((Tallies.start c b.overrides ps).foldl_applyOverride fun _ => id).foldl_applyAddition b.additions

end Customiser

namespace Round

variable {r : Round} {bearer : Bearer} {request : ViewRequest}

/-- How many properties the view of a request would have if none were dropped. -/
def offered (r : Round) (bearer : Bearer) (request : ViewRequest) : Nat :=
  match r.viewable bearer request with
  | .error _ => 0
  | .ok source =>
    match r.startingProperties bearer request source with
    | .error _ => 0
    | .ok ps =>
      ps.length +
        ((r.configBearer? (request.config.resolve bearer.name)).elim [] (·.additions)).length

/-- The diagnostics of the properties of a view: an error of the config type for each of the
messages, in order, and warnings about changes of members that the target does not have. -/
structure Notes (r : Round) (bearer : Bearer) (request : ViewRequest) (messages : List String)
    (ds : List Diagnostic) : Prop where
  errors : ds.filter (·.isError) = messages.map
    (.error (request.config.resolve bearer.name) (request.target.resolve bearer.name))
  warnings : ∀ d ∈ ds, d.isError = false → ∃ source, r.viewable bearer request = .ok source ∧
    ∃ o ∈ r.changesOf (request.config.resolve bearer.name), source.member? o.name = none ∧
      d = .warning (request.config.resolve bearer.name) (request.target.resolve bearer.name)
        ((r.customiser bearer request source).missingMessage o.name)

theorem notes_nil : r.Notes bearer request [] [] :=
  ⟨rfl, by simp⟩

theorem customised_notes {source : SourceType} {ps : List Property}
    (viewable : r.viewable bearer request = .ok source)
    (starting : r.startingProperties bearer request source = .ok ps) :
    let c := r.customised bearer request source ps
    r.Notes bearer request c.errors c.diagnostics ∧
      c.properties.length + c.errors.length = r.offered bearer request := by
  have offered : r.offered bearer request = ps.length +
      ((r.configBearer? (request.config.resolve bearer.name)).elim [] (·.additions)).length := by
    unfold Round.offered
    rw [viewable]
    dsimp only
    rw [starting]
  rw [customised_eq, offered]
  -- without a bearer of the config type nothing is changed and nothing noted
  cases found : r.configBearer? (request.config.resolve bearer.name) with
  | none => exact ⟨notes_nil, rfl⟩
  | some b =>
    have tallies := (r.customiser bearer request source).apply_tallies b ps
    refine ⟨⟨tallies.errors, fun d hd harmless => ?_⟩, tallies.count⟩
    obtain ⟨o, ho, absent, rfl⟩ := tallies.warnings d hd harmless
    refine ⟨source, viewable, o, ?_, absent, rfl⟩
    rw [changesOf, found]
    exact ho

/-- Resolving a request notes what happens to its properties, whether or not it succeeds. -/
theorem resolveView_notes (r : Round) (bearer : Bearer) (request : ViewRequest) :
    ∃ messages, r.Notes bearer request messages (r.resolveView bearer request).diagnostics ∧
      ∀ v, (r.resolveView bearer request).result = .ok v →
        v.errors = messages ∧ v.properties.length + messages.length = r.offered bearer request := by
  unfold resolveView
  split
  · exact ⟨[], notes_nil, fun v h => nomatch h⟩
  · rename_i source viewable
    split
    · exact ⟨[], notes_nil, fun v h => nomatch h⟩
    · rename_i ps starting
      obtain ⟨notes, count⟩ := customised_notes viewable starting
      refine ⟨_, notes, fun v h => ?_⟩
      obtain ⟨-, -, rfl⟩ := assemble_ok h
      exact ⟨rfl, count⟩

def Drops (r : Round) : Task → Prop
  | .view b request =>
    ∃ v, (r.resolveView b request).result = .ok v ∧ v.properties.length < r.offered b request
  | .metaType .. => False

inductive Accounted (r : Round) : Task → OutcomeState → List Diagnostic → Prop
  | deferred (t : Task) (w : TypeName) : Accounted r t (.deferred w)
      [.warning t.bearer.name t.target (t.deferralMessage r w)]
  | duplicate (t : Task) : Accounted r t .duplicate
      [.warning t.bearer.name t.target (t.repeatMessage r)]
  | failedView (b : Bearer) (request : ViewRequest) (messages : List String)
      (before : List Diagnostic) (message : String)
      (notes : r.Notes b request messages before) :
      Accounted r (.view b request) .failed
        (before ++ [.error b.name (request.target.resolve b.name) message])
  | failedMeta (b : Bearer) (request : MetaRequest) (message : String) :
      Accounted r (.metaType b request) .failed
        [.error b.name (request.target.resolve b.name) message]
  | renderedView (b : Bearer) (request : ViewRequest) (v : View) (ds : List Diagnostic)
      (resolved : (r.resolveView b request).result = .ok v)
      (notes : r.Notes b request v.errors ds)
      (count : v.properties.length + v.errors.length = r.offered b request) :
      Accounted r (.view b request) .rendered ds
  | renderedMeta (b : Bearer) (request : MetaRequest) : Accounted r (.metaType b request) .rendered []

variable {σ : Type} {renderer : Renderer} {sink : Sink σ} {t : Task} {state : OutcomeState}
  {ds : List Diagnostic}

theorem accounted_failed (r : Round) (renderer : Renderer) (t : Task) (message : String) :
    r.Accounted t .failed
      ((t.render r renderer).diagnostics ++ [.error t.bearer.name t.target message]) := by
  cases t with
  | view b request =>
    obtain ⟨messages, notes, -⟩ := r.resolveView_notes b request
    exact .failedView b request messages _ message notes
  | metaType b request => exact .failedMeta b request message

theorem accounted_rendered {tokens : Tokens} (h : (t.render r renderer).result = .ok tokens) :
    r.Accounted t .rendered (t.render r renderer).diagnostics := by
  cases t with
  | view b request =>
    obtain ⟨v, resolved, -⟩ := bind_ok_iff.1 h
    obtain ⟨messages, notes, outcome⟩ := r.resolveView_notes b request
    obtain ⟨rfl, count⟩ := outcome v resolved
    exact .renderedView b request v _ resolved notes count
  | metaType b request => exact .renderedMeta b request

/-- A request adds one outcome, and the diagnostics that go with it, or none if it ends the
round. -/
theorem Ends.accounted {p q : Progress σ} (h : Ends r renderer sink p t q) :
    ∃ state ds, q.outcomes = p.outcomes ++ [t.outcome r state] ∧
      q.diagnostics = p.diagnostics ++ ds ∧
      (r.Accounted t state ds ∨
        ∃ text, r.Breaks renderer p t text ∧ state = .aborted text ∧ ds = []) := by
  cases h with
  | deferred w _ => exact ⟨_, _, rfl, rfl, Or.inl (.deferred t w)⟩
  | duplicate _ _ => exact ⟨_, _, rfl, rfl, Or.inl (.duplicate t)⟩
  | failed _ _ _ _ _ => exact ⟨_, _, rfl, rfl, Or.inl (r.accounted_failed renderer t _)⟩
  | aborted text turn new bad =>
    exact ⟨_, _, rfl, rfl, Or.inr ⟨text, ⟨turn, new, bad⟩, rfl, rfl⟩⟩
  | refused _ _ _ _ _ _ _ => exact ⟨_, _, rfl, rfl, Or.inl (r.accounted_failed renderer t _)⟩
  | rendered _ _ _ _ made _ => exact ⟨_, _, rfl, rfl, Or.inl (accounted_rendered made)⟩

/-- The outcome is that of the request in some state, and the diagnostics go with it. -/
def Explains (r : Round) (t : Task) (e : Outcome × List Diagnostic) : Prop :=
  ∃ state, e.1 = t.outcome r state ∧ r.Accounted t state e.2

/-- The report has one outcome for each request, in order, and the diagnostics that go with its
state and nothing else. It has errors exactly if a request failed or a property of a rendered view
was dropped. -/
structure Accounts (r : Round) (report : Report) : Prop where
  each : ∃ es, report.outcomes = es.map (·.1) ∧ report.diagnostics = es.flatMap (·.2) ∧
    List.Forall₂ r.Explains (Task.ofBearers r.bearers) es
  errors : report.hasErrors = true ↔ (∃ o ∈ report.outcomes, o.state = .failed) ∨
    ∃ x ∈ (Task.ofBearers r.bearers).zip report.outcomes, x.2.state = .rendered ∧ r.Drops x.1
  failure : report.failure?.isSome = report.hasErrors

end Round

end RecordViews
