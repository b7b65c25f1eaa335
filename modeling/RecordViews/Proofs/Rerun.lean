import RecordViews.Proofs.Entries

/-! A round that is carried out again, with the names that it generated the first time. Nothing is
ever taken out of these names, so whatever was emitted is skipped the second time. A request that
failed came to no unit on its own account, not because of a name; so it fails again, unless another
request has generated its name in the meantime. -/

namespace RecordViews

/-- How a request that ended so ends when it is carried out again; `known` if its name has been
generated. -/
def OutcomeState.again (known : Bool) : OutcomeState → OutcomeState
  | .rendered => .duplicate
  | .failed => if known then .duplicate else .failed
  | .deferred w => .deferred w
  | .duplicate => .duplicate
  | .aborted text => .aborted text

theorem OutcomeState.abort?_again (known : Bool) (state : OutcomeState) :
    (state.again known).abort? = state.abort? := by
  cases state with
  | failed => cases known <;> rfl
  | _ => rfl

def Outcome.again (g : GeneratedNames) (o : Outcome) : Outcome :=
  { o with state := o.state.again (g.contains o.generated) }

namespace Round

variable {r : Round} {renderer : Renderer} {g known : GeneratedNames}

/-- A request of which everything it has added is known, and all that was known before. -/
theorem entry_again {t : Task} (grown : ∀ n, g.contains n = true → known.contains n = true)
    (kept : ∀ u ∈ (t.entry r renderer g).units, known.contains u.name = true)
    (ended : (t.entry r renderer g).abort? ≠ none → known.contains (t.generated r) = false) :
    (t.entry r renderer known).units = [] ∧
      (t.entry r renderer known).outcome = (t.entry r renderer g).outcome.again known := by
  unfold Task.entry at kept ended ⊢
  cases turn : t.deferredTo? r with
  | some w => exact ⟨rfl, rfl⟩
  | none =>
    rw [turn] at kept ended
    dsimp only at kept ended ⊢
    by_cases old : g.contains (t.generated r) = true
    · rw [if_pos old, if_pos (grown _ old)]
      exact ⟨rfl, rfl⟩
    · rw [if_neg old] at kept ended ⊢
      cases came : (t.render r renderer).result with
      | ok tokens =>
        rw [came] at kept
        rw [if_pos (kept _ List.mem_cons_self)]
        exact ⟨rfl, rfl⟩
      | error f =>
        rw [came] at ended
        dsimp only at ended ⊢
        cases harm : f.abort? with
        | some text =>
          rw [harm] at ended
          rw [if_neg (by simp [ended nofun])]
          exact ⟨rfl, rfl⟩
        | none =>
          -- it fails again, unless its name has been generated
          by_cases there : known.contains (t.generated r) = true
          · rw [if_pos there]
            exact ⟨rfl, by simp [Task.outcome, Outcome.again, OutcomeState.again, there]⟩
          · rw [if_neg there]
            exact ⟨rfl, by simp [Task.outcome, Outcome.again, OutcomeState.again, there]⟩

/-- A request that ends the round asks for a name that is new. -/
theorem new_of_abort {t : Task} (ended : (t.entry r renderer g).abort? ≠ none) :
    g.contains (t.generated r) = false ∧ (t.entry r renderer g).units = [] := by
  unfold Task.entry at ended ⊢
  split at ended
  · exact absurd rfl ended
  · split at ended
    · exact absurd rfl ended
    · rename_i new
      rw [if_neg new]
      dsimp only at ended ⊢
      refine ⟨eq_false_of_ne_true new, ?_⟩
      split at ended
      · split <;> rfl
      · exact absurd rfl ended

theorem entries_again {ts : List Task}
    (grown : ∀ n, (g.insertUnits ((reached (r.entries renderer g ts)).flatMap (·.units))).contains n
      = true ↔ known.contains n = true) :
    (reached (r.entries renderer known ts)).flatMap (·.units) = [] ∧
      (reached (r.entries renderer known ts)).map (·.outcome) =
        (reached (r.entries renderer g ts)).map fun e => e.outcome.again known := by
  induction ts generalizing g with
  | nil => exact ⟨rfl, rfl⟩
  | cons t rest ih =>
    rw [entries, reached, List.flatMap_cons, GeneratedNames.insertUnits_append] at grown
    have later (n : TypeName) (h : (g.insertUnits (t.entry r renderer g).units).contains n = true) :
        known.contains n = true :=
      (grown n).1 ((GeneratedNames.contains_insertUnits _ _ n).2 (Or.inl h))
    have before (n : TypeName) (h : g.contains n = true) : known.contains n = true :=
      later n ((GeneratedNames.contains_insertUnits g _ n).2 (Or.inl h))
    have ended (halted : (t.entry r renderer g).abort? ≠ none) :
        known.contains (t.generated r) = false := by
      obtain ⟨new, nothing⟩ := new_of_abort halted
      rw [if_pos (Option.isSome_iff_ne_none.2 halted), nothing] at grown
      rw [← Bool.not_eq_true, ← grown]
      simpa using new
    obtain ⟨none, outcome⟩ := entry_again before (fun u hu =>
      later u.name ((GeneratedNames.contains_insertUnits g _ _).2 (Or.inr ⟨u, hu, rfl⟩))) ended
    have halted : (t.entry r renderer known).abort? = (t.entry r renderer g).abort? := by
      rw [Entry.abort?, outcome]
      exact OutcomeState.abort?_again _ _
    rw [entries, none, GeneratedNames.insertUnits_nil, entries, reached, reached, halted,
      List.flatMap_cons, none, List.nil_append, List.map_cons, List.map_cons, outcome]
    cases stops : (t.entry r renderer g).abort? with
    | some text => exact ⟨rfl, rfl⟩
    | none =>
      rw [stops] at grown
      -- so the second run stays where it started
      obtain ⟨nothing, outcomes⟩ := ih grown
      exact ⟨nothing, congrArg _ outcomes⟩

/-- A round that is carried out again with the names it left behind emits nothing and adds no name.
What was rendered is skipped, what was put off or skipped ends as before, and what failed fails
again or is skipped, if its name has been generated after all. A round that was ended by a request
is ended by it again. -/
theorem run_again (r : Round) (renderer : Renderer) (g : GeneratedNames)
    (units later : List Emitted) :
    let first := r.run renderer Sink.memory g units
    let second := r.run renderer Sink.memory first.generated later
    second.sink = later ∧ second.generated = first.generated ∧
      second.outcomes = first.outcomes.map (Outcome.again first.generated) := by
  intro first second
  have once : first = addEntries { generated := g, sink := units }
      (reached (r.entries renderer g (Task.ofBearers r.bearers))) := r.run_memory renderer g units
  have twice : second = addEntries { generated := first.generated, sink := later }
      (reached (r.entries renderer first.generated (Task.ofBearers r.bearers))) :=
    r.run_memory renderer first.generated later
  have grown : g.insertUnits ((reached (r.entries renderer g
      (Task.ofBearers r.bearers))).flatMap (·.units)) = first.generated := by
    rw [once]
    rfl
  obtain ⟨nothing, outcomes⟩ := entries_again fun n => by rw [grown]
  rw [twice, addEntries, nothing, outcomes]
  refine ⟨List.append_nil later, rfl, ?_⟩
  rw [List.nil_append, once, addEntries, List.nil_append, List.map_map]
  rfl

/-- A person who asks for a view of somebody unknown, and for another one of the same name. -/
def namesakes : Round where
  library := { leading := true, segments := [{ name := "view_synth" }] }
  model := ⟨[{
    name := ⟨["crate"], "Person"⟩
    members := [.field "name" (.path (.ofNames ["String"]))] }]⟩
  bearers := [{
    name := ⟨["crate"], "Person"⟩
    requests := [
      { target := .named ⟨["crate"], "Ghost"⟩, genName := some "Row" },
      { target := .named ⟨["crate"], "Ghost"⟩ },
      { includes := ["name"], genName := some "Row" }] }]

-- the first request fails for want of its record, and is skipped the second time
example :
    let first := namesakes.run (Renderer.ofDerives []) Sink.memory {} []
    let second := namesakes.run (Renderer.ofDerives []) Sink.memory first.generated []
    first.outcomes.map (·.state) = [.failed, .failed, .rendered] ∧
      second.outcomes.map (·.state) = [.duplicate, .failed, .duplicate] := by
  decide +kernel

end Round

end RecordViews
