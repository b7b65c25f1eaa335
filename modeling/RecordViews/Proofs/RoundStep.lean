import Mathlib.Data.List.Forall2
import RecordViews.Round

/-! How a request of a round ends. `Ends` lists the six ways with all that each of them changes,
and `step_ends` says that there are no others, so that what holds of a round is shown by cases on
`Ends` and an induction over the requests. A round that is ended by a request has carried out the
requests up to that one, as `foldl_proceed` says. -/

namespace RecordViews.Round

variable {σ : Type}

/-- The ways in which a request that is carried out in `p` can end. -/
inductive Ends (r : Round) (renderer : Renderer) (sink : Sink σ) (p : Progress σ) (t : Task) :
    Progress σ → Prop
  | deferred (w : TypeName) (put : t.deferredTo? r = some w) :
      Ends r renderer sink p t
        (p.finish (t.outcome r (.deferred w))
          [.warning t.bearer.name t.target (t.deferralMessage r w)])
  | duplicate (turn : t.deferredTo? r = none) (old : p.generated.contains (t.generated r) = true) :
      Ends r renderer sink p t
        (p.finish (t.outcome r .duplicate)
          [.warning t.bearer.name t.target (t.repeatMessage r)])
  /-- No unit comes of it. -/
  | failed (f : Failure) (turn : t.deferredTo? r = none)
      (new : p.generated.contains (t.generated r) = false)
      (bad : (t.render r renderer).result = .error f) (harmless : f.abort? = none) :
      Ends r renderer sink p t
        (p.finish (t.outcome r .failed)
          ((t.render r renderer).diagnostics ++ [.error t.bearer.name t.target f.message]))
  | aborted (text : String) (turn : t.deferredTo? r = none)
      (new : p.generated.contains (t.generated r) = false)
      (bad : (t.render r renderer).result = .error (.abort text)) :
      Ends r renderer sink p t (p.finish (t.outcome r (.aborted text)) [])
  /-- The sink turns the unit down. -/
  | refused (tokens : Tokens) (f : EmitFault) (s : σ) (turn : t.deferredTo? r = none)
      (new : p.generated.contains (t.generated r) = false)
      (made : (t.render r renderer).result = .ok tokens)
      (refusal : sink.emit p.sink (t.generated r) tokens = (.error f, s)) :
      Ends r renderer sink p t
        (Progress.finish { p with sink := s } (t.outcome r .failed)
          ((t.render r renderer).diagnostics ++
            [.error t.bearer.name t.target (Failure.emit (t.generated r) f).message]))
  | rendered (tokens : Tokens) (s : σ) (turn : t.deferredTo? r = none)
      (new : p.generated.contains (t.generated r) = false)
      (made : (t.render r renderer).result = .ok tokens)
      (taken : sink.emit p.sink (t.generated r) tokens = (.ok (), s)) :
      Ends r renderer sink p t
        (Progress.finish { p with sink := s, generated := p.generated.insert (t.generated r) }
          (t.outcome r .rendered) (t.render r renderer).diagnostics)

theorem step_ends (r : Round) (renderer : Renderer) (sink : Sink σ) (p : Progress σ) (t : Task) :
    Ends r renderer sink p t (r.step renderer sink p t) := by
  unfold step
  split
  · rename_i w put
    exact .deferred w put
  · rename_i turn
    split
    · rename_i old
      exact .duplicate turn old
    · rename_i new
      rw [Bool.not_eq_true] at new
      unfold emit
      split
      · rename_i text bad
        exact .aborted text turn new bad
      · rename_i f other bad
        refine .failed f turn new bad ?_
        unfold Failure.abort?
        split
        · exact (other _ rfl).elim
        · rfl
      · rename_i tokens made
        dsimp only
        split
        · rename_i f s refusal
          exact .refused tokens f s turn new made refusal
        · rename_i s taken
          exact .rendered tokens s turn new made taken

/-- A request that no unit can be made for leaves nothing behind but its outcome. -/
theorem Ends.untouched {r : Round} {renderer : Renderer} {sink : Sink σ} {p q : Progress σ}
    {t : Task} {f : Failure} (h : Ends r renderer sink p t q)
    (bad : (t.render r renderer).result = .error f) :
    q.sink = p.sink ∧ q.generated = p.generated := by
  have none {tokens : Tokens} : (t.render r renderer).result ≠ .ok tokens := by
    rw [bad]
    nofun
  cases h with
  | deferred _ _ => exact ⟨rfl, rfl⟩
  | duplicate _ _ => exact ⟨rfl, rfl⟩
  | failed _ _ _ _ _ => exact ⟨rfl, rfl⟩
  | aborted _ _ _ _ => exact ⟨rfl, rfl⟩
  | refused tokens _ _ _ _ made _ => exact absurd made none
  | rendered tokens _ _ _ made _ => exact absurd made none

/-- Whatever is carried out, or not any more. -/
theorem proceed_cases (r : Round) (renderer : Renderer) (sink : Sink σ) (p : Progress σ)
    (t : Task) :
    r.proceed renderer sink p t = r.step renderer sink p t ∨ r.proceed renderer sink p t = p := by
  unfold proceed
  split
  · exact Or.inr rfl
  · exact Or.inl rfl

theorem foldl_proceed_of_aborted {r : Round} {renderer : Renderer} {sink : Sink σ} {p : Progress σ}
    (halted : p.aborted? ≠ none) (ts : List Task) : ts.foldl (r.proceed renderer sink) p = p := by
  induction ts with
  | nil => rfl
  | cons t rest ih =>
    have same : r.proceed renderer sink p t = p := if_pos (Option.isSome_iff_ne_none.2 halted)
    rw [List.foldl_cons, same, ih]

/-- Requests are carried out one after the other up to one that ends the round. -/
theorem foldl_proceed (r : Round) (renderer : Renderer) (sink : Sink σ) (ts : List Task)
    (p : Progress σ) (running : p.aborted? = none) :
    ∃ reached rest, ts = reached ++ rest ∧
      ts.foldl (r.proceed renderer sink) p = reached.foldl (r.step renderer sink) p ∧
      ((reached.foldl (r.step renderer sink) p).aborted? = none → rest = []) := by
  induction ts generalizing p with
  | nil => exact ⟨[], [], rfl, rfl, fun _ => rfl⟩
  | cons t rest ih =>
    have first : r.proceed renderer sink p t = r.step renderer sink p t :=
      if_neg (by simp [running])
    rw [List.foldl_cons, first]
    cases halted : (r.step renderer sink p t).aborted? with
    | none =>
      obtain ⟨reached, left, rfl, same, whole⟩ := ih _ halted
      exact ⟨t :: reached, left, rfl, same, whole⟩
    | some text =>
      have halted : (r.step renderer sink p t).aborted? ≠ none := by simp [halted]
      exact ⟨[t], rest, rfl, foldl_proceed_of_aborted halted rest, fun none => absurd none halted⟩

theorem run_eq_foldl_step {r : Round} {renderer : Renderer} {sink : Sink σ} {g : GeneratedNames}
    {s : σ} (finished : (r.run renderer sink g s).aborted? = none) :
    r.run renderer sink g s =
      (Task.ofBearers r.bearers).foldl (r.step renderer sink) { generated := g, sink := s } := by
  obtain ⟨reached, rest, parts, same, whole⟩ := r.foldl_proceed renderer sink
    (Task.ofBearers r.bearers) { generated := g, sink := s } rfl
  have stepped : r.run renderer sink g s =
      reached.foldl (r.step renderer sink) { generated := g, sink := s } := same
  rw [parts, whole (stepped ▸ finished), List.append_nil]
  exact stepped

/-- The outcome is the request's own, and it is put off exactly if the request is. -/
def Concludes (r : Round) (t : Task) (o : Outcome) : Prop :=
  ∃ state, o = t.outcome r state ∧ ∀ w, state = .deferred w ↔ t.deferredTo? r = some w

theorem Ends.concludes {r : Round} {renderer : Renderer} {sink : Sink σ} {p q : Progress σ}
    {t : Task} (h : Ends r renderer sink p t q) :
    ∃ o, q.outcomes = p.outcomes ++ [o] ∧ r.Concludes t o := by
  cases h with
  | deferred w put =>
    refine ⟨_, rfl, _, rfl, fun w' => ?_⟩
    rw [put, OutcomeState.deferred.injEq, Option.some.injEq]
  | duplicate turn _ => exact ⟨_, rfl, _, rfl, fun w => by simp [turn]⟩
  | failed _ turn _ _ _ => exact ⟨_, rfl, _, rfl, fun w => by simp [turn]⟩
  | aborted _ turn _ _ => exact ⟨_, rfl, _, rfl, fun w => by simp [turn]⟩
  | refused _ _ _ turn _ _ _ => exact ⟨_, rfl, _, rfl, fun w => by simp [turn]⟩
  | rendered _ _ turn _ _ _ => exact ⟨_, rfl, _, rfl, fun w => by simp [turn]⟩

theorem foldl_concludes (r : Round) (renderer : Renderer) (sink : Sink σ) (ts : List Task)
    (p : Progress σ) :
    ∃ os, (ts.foldl (r.step renderer sink) p).outcomes = p.outcomes ++ os ∧
      List.Forall₂ r.Concludes ts os := by
  induction ts generalizing p with
  | nil => exact ⟨[], by simp, .nil⟩
  | cons t rest ih =>
    obtain ⟨o, ho, concludes⟩ := (r.step_ends renderer sink p t).concludes
    obtain ⟨os, hos, all⟩ := ih (r.step renderer sink p t)
    refine ⟨o :: os, ?_, .cons concludes all⟩
    rw [List.foldl_cons, hos, ho, List.append_assoc, List.singleton_append]

/-- The outcomes of a round are those of its requests, one each and in order, up to a request that
ends the round. -/
theorem run_concludes (r : Round) (renderer : Renderer) (sink : Sink σ) (g : GeneratedNames)
    (s : σ) :
    let p := r.run renderer sink g s
    ∃ reached rest, Task.ofBearers r.bearers = reached ++ rest ∧
      List.Forall₂ r.Concludes reached p.outcomes ∧ (p.aborted? = none → rest = []) := by
  intro p
  obtain ⟨reached, rest, parts, same, whole⟩ := r.foldl_proceed renderer sink
    (Task.ofBearers r.bearers) { generated := g, sink := s } rfl
  have stepped : p = reached.foldl (r.step renderer sink) { generated := g, sink := s } := same
  obtain ⟨os, hos, all⟩ := foldl_concludes r renderer sink reached { generated := g, sink := s }
  rw [List.nil_append] at hos
  exact ⟨reached, rest, parts, by rwa [stepped, hos], stepped ▸ whole⟩

theorem concludes_of_finished {r : Round} {renderer : Renderer} {sink : Sink σ}
    {g : GeneratedNames} {s : σ} (finished : (r.run renderer sink g s).aborted? = none) :
    List.Forall₂ r.Concludes (Task.ofBearers r.bearers) (r.run renderer sink g s).outcomes := by
  obtain ⟨reached, rest, parts, all, whole⟩ := r.run_concludes renderer sink g s
  rwa [parts, whole finished, List.append_nil]

/-- The request is due after what was done in `p`, and takes a text for an identifier that is
none. -/
structure Breaks (r : Round) (renderer : Renderer) (p : Progress σ) (t : Task) (text : String) :
    Prop where
  turn : t.deferredTo? r = none
  new : p.generated.contains (t.generated r) = false
  bad : (t.render r renderer).result = .error (.abort text)

theorem Ends.aborted?_eq_none_iff {r : Round} {renderer : Renderer} {sink : Sink σ}
    {p q : Progress σ} {t : Task} (h : Ends r renderer sink p t q) :
    q.aborted? = none ↔ p.aborted? = none ∧ ∀ text, ¬ r.Breaks renderer p t text := by
  have added {o : Outcome} (outcomes : q.outcomes = p.outcomes ++ [o]) :
      q.aborted? = none ↔ p.aborted? = none ∧ o.state.abort? = none := by
    rw [Progress.aborted?, Progress.aborted?, outcomes, List.findSome?_append]
    cases p.outcomes.findSome? (·.state.abort?) <;> simp
  cases h with
  | deferred w put =>
    exact (added rfl).trans (and_congr_right' (iff_of_true rfl fun text breaks =>
      nomatch put.symm.trans breaks.turn))
  | duplicate turn old =>
    exact (added rfl).trans (and_congr_right' (iff_of_true rfl fun text breaks =>
      nomatch old.symm.trans breaks.new))
  | failed f turn new bad harmless =>
    refine (added rfl).trans (and_congr_right' (iff_of_true rfl fun text breaks => ?_))
    obtain rfl := Except.error.inj (bad.symm.trans breaks.bad)
    cases harmless
  | aborted text turn new bad =>
    exact (added rfl).trans (and_congr_right' (iff_of_false nofun
      fun all => all text ⟨turn, new, bad⟩))
  | refused tokens f s turn new made refusal =>
    exact (added rfl).trans (and_congr_right' (iff_of_true rfl fun text breaks =>
      nomatch made.symm.trans breaks.bad))
  | rendered tokens s turn new made taken =>
    exact (added rfl).trans (and_congr_right' (iff_of_true rfl fun text breaks =>
      nomatch made.symm.trans breaks.bad))

theorem foldl_step_running {r : Round} {renderer : Renderer} {sink : Sink σ} {p : Progress σ}
    {ts : List Task} (h : (ts.foldl (r.step renderer sink) p).aborted? = none) :
    p.aborted? = none := by
  induction ts generalizing p with
  | nil => exact h
  | cons t rest ih => exact ((r.step_ends renderer sink p t).aborted?_eq_none_iff.1 (ih h)).1

variable {r : Round} {ts : List Task} {os : List Outcome}

theorem exists_task (all : List.Forall₂ r.Concludes ts os) {o : Outcome} (ho : o ∈ os) :
    ∃ t ∈ ts, r.Concludes t o := by
  induction all with
  | nil => simp at ho
  | cons first _ ih =>
    rcases List.mem_cons.1 ho with rfl | ho
    · exact ⟨_, List.mem_cons_self, first⟩
    · obtain ⟨t, ht, concludes⟩ := ih ho
      exact ⟨t, List.mem_cons_of_mem _ ht, concludes⟩

theorem exists_outcome (all : List.Forall₂ r.Concludes ts os) {t : Task} (ht : t ∈ ts) :
    ∃ o ∈ os, r.Concludes t o := by
  induction all with
  | nil => simp at ht
  | cons first _ ih =>
    rcases List.mem_cons.1 ht with rfl | ht
    · exact ⟨_, List.mem_cons_self, first⟩
    · obtain ⟨o, ho, concludes⟩ := ih ht
      exact ⟨o, List.mem_cons_of_mem _ ho, concludes⟩

end RecordViews.Round
