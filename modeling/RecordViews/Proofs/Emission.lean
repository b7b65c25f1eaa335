import RecordViews.Proofs.GeneratedNames
import RecordViews.Proofs.RoundStep
import RecordViews.Round.Session

/-! What rounds emit. A sink may turn down any unit at any time, so what it took is kept in a record
beside its state; the record changes nothing else. `Emits` says what every stretch of a run adds to
the names generated and to that record: the names of the rendered outcomes, all of them new. -/

namespace RecordViews

variable {σ : Type}

/-- Does what `sink` does, and keeps a record of the units it took. -/
def Sink.recording (sink : Sink σ) : Sink (σ × List Emitted) where
  emit s name tokens :=
    match sink.emit s.1 name tokens with
    | (.ok (), s') => (.ok (), s', s.2 ++ [⟨name, tokens⟩])
    | (.error f, s') => (.error f, s', s.2)

theorem Sink.recording_taken {sink : Sink σ} {s s' : σ × List Emitted} {name : TypeName}
    {tokens : Tokens} (h : sink.recording.emit s name tokens = (.ok (), s')) :
    s'.2 = s.2 ++ [⟨name, tokens⟩] := by
  unfold recording at h
  dsimp only at h
  split at h
  · obtain ⟨-, rfl⟩ := Prod.mk.inj h
    rfl
  · simp at h

theorem Sink.recording_refused {sink : Sink σ} {s s' : σ × List Emitted} {name : TypeName}
    {tokens : Tokens} {f : EmitFault} (h : sink.recording.emit s name tokens = (.error f, s')) :
    s'.2 = s.2 := by
  unfold recording at h
  dsimp only at h
  split at h
  · simp at h
  · obtain ⟨-, rfl⟩ := Prod.mk.inj h
    rfl

def renderedNames (os : List Outcome) : List TypeName :=
  (os.filter (·.state == .rendered)).map (·.generated)

theorem renderedNames_append (os os' : List Outcome) :
    renderedNames (os ++ os') = renderedNames os ++ renderedNames os' := by
  simp [renderedNames]

def Progress.unrecorded (p : Progress (σ × List Emitted)) : Progress σ :=
  ⟨p.generated, p.sink.1, p.outcomes, p.diagnostics⟩

def Session.unrecorded (s : Session (σ × List Emitted)) : Session σ :=
  ⟨s.generated, s.sink.1, s.reports, s.aborted⟩

theorem Round.step_unrecorded (r : Round) (renderer : Renderer) (sink : Sink σ)
    (p : Progress (σ × List Emitted)) (t : Task) :
    (r.step renderer sink.recording p t).unrecorded = r.step renderer sink p.unrecorded t := by
  have hg : p.unrecorded.generated = p.generated := rfl
  have hs : p.unrecorded.sink = p.sink.1 := rfl
  unfold step
  split
  · rfl
  · rw [hg]
    split
    · rfl
    · unfold emit Sink.recording
      split
      · rfl
      · rfl
      · rename_i tokens _
        simp only [hs, hg]
        cases h : sink.emit p.sink.1 (t.generated r) tokens with
        | mk taken s => cases taken <;> rfl

theorem Round.proceed_unrecorded (r : Round) (renderer : Renderer) (sink : Sink σ)
    (p : Progress (σ × List Emitted)) (t : Task) :
    (r.proceed renderer sink.recording p t).unrecorded =
      r.proceed renderer sink p.unrecorded t := by
  unfold proceed
  rw [show p.unrecorded.aborted? = p.aborted? from rfl, ← r.step_unrecorded]
  split <;> rfl

theorem Round.run_unrecorded (r : Round) (renderer : Renderer) (sink : Sink σ)
    (g : GeneratedNames) (s : σ × List Emitted) :
    (r.run renderer sink.recording g s).unrecorded = r.run renderer sink g s.1 := by
  unfold run
  refine (List.foldl_hom Progress.unrecorded fun p t => ?_).symm
  exact (r.proceed_unrecorded renderer sink p t).symm

theorem Session.run_unrecorded (renderer : Renderer) (sink : Sink σ)
    (s : Session (σ × List Emitted)) (rounds : List Round) :
    (s.run renderer sink.recording rounds).unrecorded = s.unrecorded.run renderer sink rounds := by
  unfold run
  refine (List.foldl_hom Session.unrecorded fun s r => ?_).symm
  have h := r.run_unrecorded renderer sink s.generated s.sink
  unfold next
  rw [show s.unrecorded.aborted = s.aborted from rfl]
  split
  · rfl
  · simp only [unrecorded, ← h]
    rfl

/-- Between two points of a run lie the outcomes `os`. The names of the rendered ones, none of
which was there before and no two of which share a text, went into the set, and a unit of each was
taken, in their order. -/
structure Emits (g g' : GeneratedNames) (units units' : List Emitted) (os : List Outcome) :
    Prop where
  names : g'.names.Perm (g.names ++ renderedNames os)
  taken : ∃ new, units' = units ++ new ∧ new.map (·.name) = renderedNames os
  fresh : ∀ n ∈ renderedNames os, g.contains n = false
  once : ((renderedNames os).map (·.text)).Nodup

namespace Emits

variable {g g₁ g₂ g₃ : GeneratedNames} {us us₁ us₂ us₃ : List Emitted} {os os' : List Outcome}

/-- Nothing was rendered. -/
theorem same (h : renderedNames os = []) : Emits g g us us os :=
  ⟨by simp [h], ⟨[], by simp [h]⟩, by simp [h], by simp [h]⟩

theorem trans (h : Emits g₁ g₂ us₁ us₂ os) (h' : Emits g₂ g₃ us₂ us₃ os') :
    Emits g₁ g₃ us₁ us₃ (os ++ os') := by
  have old := GeneratedNames.contains_of_perm h.names
  -- what the first stretch generated is not new to the second
  have apart : ∀ n ∈ renderedNames os', g₁.contains n = false ∧
      ∀ m ∈ renderedNames os, m.text ≠ n.text := by
    intro n hn
    have := mt (old n).2 (by simp [h'.fresh n hn])
    rw [not_or, Bool.not_eq_true] at this
    exact ⟨this.1, fun m hm e => this.2 ⟨m, hm, e⟩⟩
  obtain ⟨new, rfl, hnew⟩ := h.taken
  obtain ⟨new', rfl, hnew'⟩ := h'.taken
  constructor
  · rw [renderedNames_append, ← List.append_assoc]
    exact h'.names.trans (h.names.append_right _)
  · exact ⟨new ++ new', by simp, by simp [renderedNames_append, hnew, hnew']⟩
  · intro n hn
    rw [renderedNames_append] at hn
    rcases List.mem_append.1 hn with hn | hn
    · exact h.fresh n hn
    · exact (apart n hn).1
  · rw [renderedNames_append, List.map_append, List.nodup_append]
    refine ⟨h.once, h'.once, ?_⟩
    intro a ha b hb
    obtain ⟨m, hm, rfl⟩ := List.mem_map.1 ha
    obtain ⟨n, hn, rfl⟩ := List.mem_map.1 hb
    exact (apart n hn).2 m hm

end Emits

namespace Round

/-- What one request adds. -/
theorem Ends.emits {r : Round} {renderer : Renderer} {sink : Sink σ}
    {p q : Progress (σ × List Emitted)} {t : Task} (h : Ends r renderer sink.recording p t q) :
    ∃ o, q.outcomes = p.outcomes ++ [o] ∧
      Emits p.generated q.generated p.sink.2 q.sink.2 [o] ∧
      (o.state ≠ .rendered → q.generated = p.generated ∧ q.sink.2 = p.sink.2) := by
  cases h with
  | deferred w put => exact ⟨_, rfl, .same rfl, fun _ => ⟨rfl, rfl⟩⟩
  | duplicate turn old => exact ⟨_, rfl, .same rfl, fun _ => ⟨rfl, rfl⟩⟩
  | failed f turn new bad harmless => exact ⟨_, rfl, .same rfl, fun _ => ⟨rfl, rfl⟩⟩
  | aborted text turn new bad => exact ⟨_, rfl, .same rfl, fun _ => ⟨rfl, rfl⟩⟩
  | refused tokens f s turn new made refusal =>
    have hs := Sink.recording_refused refusal
    refine ⟨_, rfl, ?_, fun _ => ⟨rfl, hs⟩⟩
    simp only [Progress.finish, hs]
    exact .same rfl
  | rendered tokens s turn new made taken =>
    refine ⟨_, rfl, ⟨?_, ⟨_, Sink.recording_taken taken, rfl⟩, ?_, ?_⟩, fun h => absurd rfl h⟩
    · exact (GeneratedNames.insert_perm new).trans (List.perm_append_singleton _ _).symm
    · intro n hn
      obtain rfl : n = t.generated r := by simpa [renderedNames, Task.outcome] using hn
      exact new
    · simp [renderedNames, Task.outcome]

theorem foldl_emits (r : Round) (renderer : Renderer) (sink : Sink σ) (ts : List Task)
    (p : Progress (σ × List Emitted)) :
    let q := ts.foldl (r.proceed renderer sink.recording) p
    ∃ os, q.outcomes = p.outcomes ++ os ∧
      Emits p.generated q.generated p.sink.2 q.sink.2 os := by
  induction ts generalizing p with
  | nil => exact ⟨[], by simp, .same rfl⟩
  | cons t rest ih =>
    rw [List.foldl_cons]
    rcases r.proceed_cases renderer sink.recording p t with done | halted
    · rw [done]
      obtain ⟨o, ho, one, _⟩ := (r.step_ends renderer sink.recording p t).emits
      obtain ⟨os, hos, more⟩ := ih (r.step renderer sink.recording p t)
      exact ⟨[o] ++ os, by rw [hos, ho, List.append_assoc], one.trans more⟩
    · rw [halted]
      exact ih p

/-- What a round adds. -/
theorem run_emits (r : Round) (renderer : Renderer) (sink : Sink σ) (g : GeneratedNames)
    (s : σ × List Emitted) :
    let q := r.run renderer sink.recording g s
    Emits g q.generated s.2 q.sink.2 q.outcomes := by
  obtain ⟨os, hos, emits⟩ := r.foldl_emits renderer sink (Task.ofBearers r.bearers)
    { generated := g, sink := s }
  rw [List.nil_append] at hos
  subst hos
  exact emits

end Round

/-- What rounds add together. -/
theorem Session.run_emits (renderer : Renderer) (sink : Sink σ) (rounds : List Round)
    (s : Session (σ × List Emitted)) :
    let s' := s.run renderer sink.recording rounds
    ∃ os, Emits s.generated s'.generated s.sink.2 s'.sink.2 os := by
  induction rounds generalizing s with
  | nil => exact ⟨[], .same rfl⟩
  | cons r rest ih =>
    obtain ⟨os, more⟩ := ih (s.next renderer sink.recording r)
    have one : ∃ os, Emits s.generated (s.next renderer sink.recording r).generated s.sink.2
        (s.next renderer sink.recording r).sink.2 os := by
      unfold next
      split
      · exact ⟨[], .same rfl⟩
      · exact ⟨_, r.run_emits renderer sink s.generated s.sink⟩
    obtain ⟨os', one⟩ := one
    exact ⟨os' ++ os, one.trans more⟩

/-- Rounds `before` and then a round `r` share the names generated and a sink that may turn down
any unit. The round adds to the names exactly those of its rendered outcomes, and the units the
sink took in it are those of the rendered outcomes, one each and in order. Over all the rounds no
text of a name is emitted twice or was there at the start. A request that ends otherwise adds
nothing. -/
theorem rounds_emit_rendered_once (renderer : Renderer) (sink : Sink σ) (g : GeneratedNames) (s : σ)
    (before : List Round) (r : Round) :
    let start := Session.run renderer sink.recording { generated := g, sink := (s, []) } before
    let actual := Session.run renderer sink { generated := g, sink := s } before
    let p := r.run renderer sink.recording start.generated start.sink
    p.unrecorded = r.run renderer sink actual.generated actual.sink ∧
    p.generated.names.Perm (start.generated.names ++ p.report.rendered) ∧
    (∃ new, p.sink.2 = start.sink.2 ++ new ∧ new.map (·.name) = p.report.rendered) ∧
    (p.sink.2.map (·.name.text)).Nodup ∧
    (∀ u ∈ p.sink.2, g.contains u.name = false) ∧
    ∀ (a : Progress (σ × List Emitted)) (t : Task),
      let b := r.step renderer sink.recording a t
      ∃ o, b.outcomes = a.outcomes ++ [o] ∧
        (o.state ≠ .rendered → b.generated = a.generated ∧ b.sink.2 = a.sink.2) := by
  intro start actual p
  obtain ⟨os, earlier⟩ := Session.run_emits renderer sink before
    { generated := g, sink := (s, []) }
  have current := r.run_emits renderer sink start.generated start.sink
  obtain ⟨units, hunits, hnames⟩ := (earlier.trans current).taken
  rw [List.nil_append] at hunits
  have faithful : start.unrecorded = actual := Session.run_unrecorded renderer sink _ before
  refine ⟨?_, current.names, current.taken, ?_, ?_, fun a t => ?_⟩
  · rw [← faithful]
    exact r.run_unrecorded renderer sink start.generated start.sink
  · have := (earlier.trans current).once
    rw [← hnames, List.map_map] at this
    rw [hunits]
    exact this
  · intro u hu
    refine (earlier.trans current).fresh u.name ?_
    rw [← hnames, ← hunits]
    exact List.mem_map_of_mem hu
  · obtain ⟨o, ho, _, unchanged⟩ := (r.step_ends renderer sink.recording a t).emits
    exact ⟨o, ho, unchanged⟩

end RecordViews
