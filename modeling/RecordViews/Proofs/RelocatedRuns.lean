import RecordViews.Proofs.RelocatedRounds

/-! The same items in two modules. A macro reads them in a module of its own name, and a build
script reads them where the module is in the crate; as long as they name only records of their own
module, both come to the same end. -/

namespace RecordViews

open Grammar (Item Path)

variable {S T : Scope} {derives : List Path}

def OutcomeState.relocate (s : OutcomeState) (T : Scope) : OutcomeState :=
  match s with
  | .deferred winner => .deferred (winner.relocate T)
  | .rendered => .rendered
  | .duplicate => .duplicate
  | .failed => .failed
  | .aborted text => .aborted text

def Outcome.relocate (o : Outcome) (T : Scope) : Outcome where
  bearer := o.bearer.relocate T
  kind := o.kind
  target := o.target.relocate T
  generated := o.generated.relocate T
  state := o.state.relocate T

structure Emitted.Moves (derives : List Path) (T : Scope) (u u' : Emitted) : Prop where
  name : u'.name = u.name.relocate T
  tokens : Tokens.Alike derives u.tokens u'.tokens

/-- The second request adds what the first one does, moved, and reports as much. -/
structure Entry.Moves (derives : List Path) (T : Scope) (e e' : Entry) : Prop where
  outcome : e'.outcome = e.outcome.relocate T
  diagnostics : e'.diagnostics.map (·.severity) = e.diagnostics.map (·.severity)
  units : List.Forall₂ (Emitted.Moves derives T) e.units e'.units

/-- A name of the module is among the first names if it is, moved, among the second ones. -/
def GeneratedNames.Moves (S T : Scope) (g g' : GeneratedNames) : Prop :=
  ∀ n : TypeName, n.relocate S = n → g'.contains (n.relocate T) = g.contains n

theorem GeneratedNames.Moves.insertUnits {g g' : GeneratedNames} (h : g.Moves S T g')
    {us us' : List Emitted} (placed : ∀ u ∈ us, u.name.relocate S = u.name)
    (moved : List.Forall₂ (Emitted.Moves derives T) us us') :
    (g.insertUnits us).Moves S T (g'.insertUnits us') := by
  intro n hn
  rw [Bool.eq_iff_iff, contains_insertUnits, contains_insertUnits, h n hn]
  refine or_congr_right ?_
  induction moved with
  | nil => simp
  | cons first _ ih =>
    obtain ⟨here, later⟩ := List.forall_mem_cons.1 placed
    rw [List.exists_mem_cons_iff, List.exists_mem_cons_iff, ih later, first.name,
      TypeName.relocate_text_inj here hn]

section Requests

variable {r : Round} {t : Task}

theorem Task.outcome_relocate (r : Round) (t : Task) (state : OutcomeState) (T : Scope) :
    (t.relocate T).outcome (r.relocate T) (state.relocate T) = (t.outcome r state).relocate T := by
  have kind : (t.relocate T).kind = t.kind := by cases t <;> rfl
  unfold Task.outcome
  rw [generated_relocate, bearer_relocate, target_relocate, kind]
  rfl

theorem Task.entry_moves (derives : List Path) (hr : r.In S) (ht : t.In S) {g g' : GeneratedNames}
    (known : g.Moves S T g') :
    (t.entry r (.ofDerives derives) g).Moves derives T
      ((t.relocate T).entry (r.relocate T) (.ofDerives derives) g') := by
  unfold Task.entry
  rw [deferredTo?_relocate hr ht]
  cases t.deferredTo? r with
  | some w => exact ⟨t.outcome_relocate r (.deferred w) T, rfl, .nil⟩
  | none =>
    dsimp only [Option.map_none]
    rw [generated_relocate, known _ (ht.generated r)]
    split
    · exact ⟨t.outcome_relocate r .duplicate T, rfl, .nil⟩
    · have rendered := render_moves hr ht derives T
      generalize t.render r (.ofDerives derives) = v at rendered
      generalize (t.relocate T).render (r.relocate T) (.ofDerives derives) = v' at rendered
      obtain ⟨x, ds⟩ := v
      obtain ⟨y, ds'⟩ := v'
      obtain ⟨both, severities⟩ := rendered
      dsimp only at both severities
      cases both with
      | @fail f f' same =>
        dsimp only
        rw [show f'.abort? = f.abort? from same]
        cases f.abort? with
        | some text => exact ⟨t.outcome_relocate r (.aborted text) T, rfl, .nil⟩
        | none =>
          exact ⟨t.outcome_relocate r .failed T, by simp [severities, Diagnostic.error], .nil⟩
      | give alike =>
        exact ⟨t.outcome_relocate r .rendered T, severities, .cons ⟨rfl, alike⟩ .nil⟩

/-- One request after the other. -/
theorem Round.entries_move (derives : List Path) (hr : r.In S) {ts : List Task}
    (hts : ∀ t ∈ ts, t.In S) {g g' : GeneratedNames} (known : g.Moves S T g') :
    List.Forall₂ (Entry.Moves derives T) (r.entries (.ofDerives derives) g ts)
      ((r.relocate T).entries (.ofDerives derives) g' (ts.map (·.relocate T))) := by
  induction ts generalizing g g' with
  | nil => exact .nil
  | cons t rest ih =>
    obtain ⟨first, later⟩ := List.forall_mem_cons.1 hts
    have entry := Task.entry_moves derives hr first known
    refine .cons entry (ih later (known.insertUnits (fun u hu => ?_) entry.units))
    rw [(entry_units hu).1]
    exact first.generated r

end Requests

/-- The second run came to what the first one did, moved: the requests ended alike, as many messages
of each severity came up in the same order, and the units are the same but for their texts. -/
structure Progress.Moves (derives : List Path) (T : Scope) (p p' : Progress (List Emitted)) :
    Prop where
  outcomes : p'.outcomes = p.outcomes.map (·.relocate T)
  diagnostics : p'.diagnostics.map (·.severity) = p.diagnostics.map (·.severity)
  units : List.Forall₂ (Emitted.Moves derives T) p.sink p'.sink

theorem Entry.moves_all {es es' : List Entry} (h : List.Forall₂ (Entry.Moves derives T) es es') :
    es'.map (·.outcome) = (es.map (·.outcome)).map (·.relocate T) ∧
      (es'.flatMap (·.diagnostics)).map (·.severity) =
        (es.flatMap (·.diagnostics)).map (·.severity) ∧
      List.Forall₂ (Emitted.Moves derives T) (es.flatMap (·.units)) (es'.flatMap (·.units)) := by
  induction h with
  | nil => exact ⟨rfl, rfl, .nil⟩
  | cons first _ ih =>
    obtain ⟨outcomes, diagnostics, units⟩ := ih
    refine ⟨?_, ?_, List.rel_append first.units units⟩
    · rw [List.map_cons, List.map_cons, List.map_cons, first.outcome, outcomes]
    · rw [List.flatMap_cons, List.flatMap_cons, List.map_append, List.map_append,
        first.diagnostics, diagnostics]

/-- Both runs end with the same request, if with any. -/
theorem Round.reached_moves {es es' : List Entry}
    (h : List.Forall₂ (Entry.Moves derives T) es es') :
    List.Forall₂ (Entry.Moves derives T) (reached es) (reached es') := by
  induction h with
  | nil => exact .nil
  | @cons e e' _ _ first _ ih =>
    have ended : e'.abort? = e.abort? := by
      unfold Entry.abort?
      rw [first.outcome]
      unfold Outcome.relocate OutcomeState.relocate
      cases e.outcome.state <;> rfl
    rw [reached, reached, ended]
    refine .cons first ?_
    split
    · exact .nil
    · exact ih

theorem Round.run_moves {r : Round} (hr : r.In S) (derives : List Path) (T : Scope) :
    (r.run (.ofDerives derives) Sink.memory {} []).Moves derives T
      ((r.relocate T).run (.ofDerives derives) Sink.memory {} []) := by
  have start : GeneratedNames.Moves S T {} {} := fun _ _ => rfl
  have moved := entries_move derives hr (fun t => Task.in_of_mem hr.bearers) start
  rw [← Task.ofBearers_relocate] at moved
  obtain ⟨outcomes, diagnostics, units⟩ := Entry.moves_all (reached_moves moved)
  rw [run_memory, run_memory]
  exact ⟨outcomes, diagnostics, units⟩

namespace SourceUnit

/-- All requests of the unit, carried out in memory where nothing was generated before. -/
def run (u : SourceUnit) (settings : Settings) (library : Path) (derives : List Path) :
    Progress (List Emitted) :=
  ({ settings, library, model := u.model, bearers := u.bearers } : Round).run
    (.ofDerives derives) Sink.memory {} []

/-- Let the items of a module name only records of it in their helper attributes, in the headers of
blocks and in the parameters of property functions, each by a single word. In any two modules either
both units have wrong attributes, or their requests end alike one by one, as many messages of each
severity come up in the same order, and the same records are written but for their texts. -/
theorem runs_alike {items : List Item} (h : ∀ i ∈ items, i.isLocal = true) (settings : Settings)
    (library : Path) (derives : List Path) (locate : Nat → Location) (S T : Scope) :
    Together (fun _ _ => True) (fun u u' =>
        (u.run settings library derives).Moves derives T (u'.run settings library derives))
      (ofItems locate S items) (ofItems locate T items) := by
  rw [ofItems_relocate h S T]
  cases read : ofItems locate S items with
  | error faults => exact .fail trivial
  | ok u =>
    have placed := placed_of_ofItems h read
    have inside : Round.In { settings, library, model := u.model, bearers := u.bearers } S :=
      ⟨congrArg SourceUnit.model placed,
        map_eq_self_iff.1 (congrArg SourceUnit.bearers placed), isLocal_of_ofItems h read⟩
    exact .give (Round.run_moves inside derives T)

/-- A record that asks for a view of itself by its name, and a function that gives a further
property of it. -/
def labelModule : List Item := [
  .record { (default : Grammar.RecordItem) with
    attributes := [{
      path := .ofNames ["view_of"]
      args := .list .paren [.ident "target", .punct '=' false, .ident "Person"] }]
    name := "Person"
    fields := .named [{ (default : Grammar.Field) with
      name := "name"
      ty := .path (.ofNames ["String"]) }] false },
  .block { (default : Grammar.BlockItem) with
    selfType := .path (.ofNames ["Person"])
    members := [.function (labelFunction (.ofNames ["Person"]))] }]

/-- What comes of it in the module `m`. -/
def labelOutcome : Outcome where
  bearer := ⟨["m"], "Person"⟩
  kind := .view
  target := ⟨["m"], "Person"⟩
  generated := ⟨["m"], "PersonView"⟩
  state := .rendered

/-- Here both runs write one record, and nothing is reported. -/
theorem labelModule_runs_alike :
    (∀ i ∈ labelModule, i.isLocal = true) ∧
      ∃ u u', ofItems (fun _ => ⟨1, 0⟩) ["m"] labelModule = .ok u ∧
        ofItems (fun _ => ⟨1, 0⟩) ["crate", "a", "m"] labelModule = .ok u' ∧
        (u.run {} (.ofNames ["view_synth"]) []).Moves [] ["crate", "a", "m"]
          (u'.run {} (.ofNames ["view_synth"]) []) ∧
        (u.run {} (.ofNames ["view_synth"]) []).outcomes = [labelOutcome] ∧
        (u.run {} (.ofNames ["view_synth"]) []).diagnostics = [] := by
  have home : ∀ i ∈ labelModule, i.isLocal = true := by decide
  obtain ⟨u, read, outcomes, diagnostics⟩ :
      ∃ u, ofItems (fun _ => ⟨1, 0⟩) ["m"] labelModule = .ok u ∧
        (u.run {} (.ofNames ["view_synth"]) []).outcomes = [labelOutcome] ∧
        (u.run {} (.ofNames ["view_synth"]) []).diagnostics = [] :=
    ⟨_, rfl, by decide +kernel, by decide +kernel⟩
  obtain ⟨u', read'⟩ :
      ∃ u, ofItems (fun _ => ⟨1, 0⟩) ["crate", "a", "m"] labelModule = .ok u := ⟨_, rfl⟩
  have alike := runs_alike home {} (.ofNames ["view_synth"]) [] (fun _ => ⟨1, 0⟩) ["m"]
    ["crate", "a", "m"]
  rw [read, read'] at alike
  cases alike with
  | give moved => exact ⟨home, u, u', read, read', moved, outcomes, diagnostics⟩

end SourceUnit

end RecordViews
