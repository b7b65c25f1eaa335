import RecordViews.Expansion
import RecordViews.Proofs.Entries
import RecordViews.Proofs.FieldTypes
import RecordViews.Proofs.Requesters

/-! Where the expansion of a module puts what it generates. A type is generated in the module that
its request asks for, or else in that of its target. The first can only be the module that is
expanded; and the second as well, since nothing is generated without a target that is known, and all
that is known are records of the module. A request with another target is not carried out: it fails
or is put off, unless its name reads like one that has been generated. -/

namespace RecordViews

open Grammar (Item ModuleHead Path)

variable {scope : Scope} {u : SourceUnit}

namespace SourceUnit.Own

/-- The target of a request is in some module of words; a target that is known is in the module. -/
theorem target (own : u.Own scope) (hs : WordyScope scope) {s : Selector} (worded : s.Worded)
    {n : TypeName} (bearer : n.module = scope) :
    WordyScope (s.resolve n).module ∧
      ∀ t, u.model.find? (s.resolve n) = some t → (s.resolve n).module = scope := by
  cases s with
  | itself => exact ⟨bearer.symm ▸ hs, fun _ _ => bearer⟩
  | named m =>
    refine ⟨(TypeName.worded_iff.1 worded).1, fun t found => ?_⟩
    obtain ⟨text, here, words⟩ := own.records m t found
    have colon : isWordCharacter ':' = false := by decide
    have same : t.name = m :=
      TypeName.text_inj (words.lacks colon) (TypeName.Worded.lacks worded colon) text
    exact (congrArg TypeName.module same).symm.trans here

/-- So is what is generated for it, if no other module is asked for. -/
theorem generated (own : u.Own scope) (hs : WordyScope scope) {s : Selector} (worded : s.Worded)
    {n : TypeName} (bearer : n.module = scope) {asked : Option Scope}
    (place : ∀ m, asked = some m → m = scope) (name : Option String) (suffix : String) :
    let g := generatedName (s.resolve n) asked name suffix
    WordyScope g.module ∧ ∀ t, u.model.find? (s.resolve n) = some t → g.module = scope := by
  cases asked with
  | none => exact own.target hs worded bearer
  | some m =>
    obtain rfl := place m rfl
    exact ⟨hs, fun _ _ => rfl⟩

end SourceUnit.Own

namespace Task

/-- What the request generates is called by words up to the simple name, and is in the module if the
target is known. -/
structure Placed (r : Round) (scope : Scope) (t : Task) : Prop where
  words : WordyScope (t.generated r).module
  home : ∀ source, r.model.find? t.target = some source → (t.generated r).module = scope

theorem placed_of_mem (own : u.Own scope) (hs : WordyScope scope)
    (places : ∀ b ∈ u.bearers, ∀ m ∈ Expansion.places b, m = scope) {r : Round}
    (model : r.model = u.model) {t : Task} (ht : t ∈ ofBearers u.bearers) : t.Placed r scope := by
  obtain ⟨b, hb, ht⟩ := List.mem_flatMap.1 ht
  have asks := own.bearers b hb
  have places := List.forall_mem_append.1 (places b hb)
  rcases List.mem_append.1 ht with ht | ht
  · obtain ⟨q, hq, rfl⟩ := List.mem_map.1 ht
    have place : ∀ m, q.genModule = some m → m = scope := fun m asked =>
      places.1 m (List.mem_filterMap.2 ⟨q, hq, asked⟩)
    obtain ⟨words, home⟩ := own.generated hs (asks.views q hq)
      (asks.own (Or.inl (List.ne_nil_of_mem hq))) place q.genName r.settings.viewSuffix
    exact ⟨words, model ▸ home⟩
  · obtain ⟨q, hq, rfl⟩ := List.mem_map.1 ht
    have place : ∀ m, q.genModule = some m → m = scope := fun m asked =>
      places.2 m (List.mem_filterMap.2 ⟨q, hq, asked⟩)
    obtain ⟨words, home⟩ := own.generated hs (asks.metas q hq)
      (asks.own (Or.inr (List.ne_nil_of_mem hq))) place q.genName r.settings.metaSuffix
    exact ⟨words, model ▸ home⟩

variable {r : Round} {renderer : Renderer} {t : Task} {tokens : Tokens}

/-- Nothing is generated without a target. -/
theorem found_of_render (h : (t.render r renderer).result = .ok tokens) :
    ∃ source, r.model.find? t.target = some source := by
  cases t with
  | view b q =>
    obtain ⟨v, resolved, -⟩ := bind_ok_iff.1 h
    obtain ⟨source, -, viewable, -, -⟩ := Round.resolveView_assembles resolved
    exact ⟨source, Round.viewable_ok viewable⟩
  | metaType b q =>
    obtain ⟨m, resolved, -⟩ := bind_ok_iff.1 h
    obtain ⟨_, -, resolved⟩ := bind_ok_iff.1 resolved
    split at resolved
    · cases resolved
    · rename_i source found
      exact ⟨source, found⟩

end Task

/-- A request that generates nothing: it fails, is put off, or is skipped because of a unit whose
name has the same text, though in one of the two a colon belongs to the simple name. -/
def Outcome.Idle (units : List Emitted) (o : Outcome) : Prop :=
  o.state = .failed ∨ (∃ w, o.state = .deferred w) ∨
    o.state = .duplicate ∧ ∃ u ∈ units, u.name.text = o.generated.text ∧
      (':' ∈ o.generated.simple.toList ∨ ':' ∈ u.name.simple.toList)

theorem Outcome.Idle.mono {units more : List Emitted} {o : Outcome} (h : o.Idle units)
    (sub : units ⊆ more) : o.Idle more := by
  rcases h with failed | deferred | ⟨duplicate, u, hu, rest⟩
  · exact Or.inl failed
  · exact Or.inr (Or.inl deferred)
  · exact Or.inr (Or.inr ⟨duplicate, u, sub hu, rest⟩)

namespace Round

/-- All units are in the module, and nothing comes of the other requests. -/
structure Home (scope : Scope) (p : Progress (List Emitted)) : Prop where
  units : ∀ u ∈ p.sink, u.name.module = scope
  known : ∀ n, p.generated.contains n = true → ∃ u ∈ p.sink, u.name.text = n.text
  outcomes : ∀ o ∈ p.outcomes, o.generated.module ≠ scope → o.Idle p.sink

namespace Home

variable {r : Round} {renderer : Renderer} {p : Progress (List Emitted)} {t : Task}

theorem start (scope : Scope) : Home scope { generated := {}, sink := [] } :=
  ⟨by simp, by simp [GeneratedNames.contains], by simp⟩

theorem finish (h : Home scope p) {o : Outcome} (idle : o.generated.module ≠ scope → o.Idle p.sink)
    (ds : List Diagnostic) : Home scope (p.finish o ds) :=
  ⟨h.units, h.known, List.forall_mem_append.2 ⟨h.outcomes, List.forall_mem_singleton.2 idle⟩⟩

theorem emit (h : Home scope p) {u : Emitted} (home : u.name.module = scope) :
    Home scope { p with sink := p.sink ++ [u], generated := p.generated.insert u.name } := by
  refine ⟨List.forall_mem_append.2 ⟨h.units, List.forall_mem_singleton.2 home⟩, ?_, ?_⟩
  · intro n known
    rcases (GeneratedNames.contains_insert _ _ _).1 known with old | same
    · obtain ⟨v, hv, text⟩ := h.known n old
      exact ⟨v, List.mem_append_left _ hv, text⟩
    · exact ⟨u, List.mem_append_right _ List.mem_cons_self, same⟩
  · exact fun o ho away => (h.outcomes o ho away).mono (List.subset_append_left _ _)

theorem step (hs : WordyScope scope) (placed : t.Placed r scope) (h : Home scope p)
    (running : (r.step renderer Sink.memory p t).aborted? = none) :
    Home scope (r.step renderer Sink.memory p t) := by
  have ends := r.step_ends renderer Sink.memory p t
  have harmless := (ends.aborted?_eq_none_iff.1 running).2
  generalize r.step renderer Sink.memory p t = q at ends
  cases ends with
  | deferred w _ => exact h.finish (fun _ => Or.inr (Or.inl ⟨w, rfl⟩)) _
  | duplicate _ old =>
    refine h.finish (fun away => ?_) _
    obtain ⟨u, hu, text⟩ := h.known _ old
    have here := h.units u hu
    refine Or.inr (Or.inr ⟨rfl, u, hu, text, ?_⟩)
    exact TypeName.colon_of_text (here ▸ hs) placed.words text fun same =>
      away (same.symm.trans here)
  | failed _ _ _ _ _ => exact h.finish (fun _ => Or.inl rfl) _
  | aborted text turn new bad => exact absurd ⟨turn, new, bad⟩ (harmless text)
  -- this sink takes every unit
  | refused _ _ _ _ _ _ refusal => cases (Prod.mk.inj refusal).1
  | rendered tokens s _ _ made taken =>
    obtain rfl := (Prod.mk.inj taken).2
    obtain ⟨source, found⟩ := Task.found_of_render made
    have home := placed.home source found
    exact (h.emit (u := ⟨t.generated r, tokens⟩) home).finish (fun away => absurd home away) _

theorem foldl (hs : WordyScope scope) {ts : List Task} (placed : ∀ t ∈ ts, t.Placed r scope)
    (h : Home scope p) (whole : (ts.foldl (r.step renderer Sink.memory) p).aborted? = none) :
    Home scope (ts.foldl (r.step renderer Sink.memory) p) := by
  induction ts generalizing p with
  | nil => exact h
  | cons t rest ih =>
    obtain ⟨first, others⟩ := List.forall_mem_cons.1 placed
    exact ih others (h.step hs first (foldl_step_running whole)) whole

end Home

end Round

namespace Expansion

/-- The round that the expansion of a module carries out, and how it writes what it generates. -/
def round (settings : Settings) (scope : Scope) (items : List Item) :
    Except ExpansionFault (Round × Renderer) := do
  let unit ← (SourceUnit.ofItems (fun _ => default) scope items).mapError .attributes
  if unit.bearers.any fun b => (places b).any (· != scope) then .error (.misplaced scope)
  let library ← settings.libraryPath.mapError .failure
  let derives ← settings.derivePaths.mapError .failure
  return ({ settings, library, model := unit.model, bearers := unit.bearers },
    Renderer.ofDerives derives)

def withViews (head : ModuleHead) (items : List Item) (p : Progress (List Emitted)) : Tokens :=
  Item.moduleTokens head
    (Item.listTokens (items.map Item.withoutHelpers) ++ p.sink.flatMap (·.tokens) ++
      p.diagnostics.flatMap Diagnostic.tokens)

variable {settings : Settings} {head : ModuleHead} {items : List Item} {tokens : Tokens}

/-- What the expansion gives after the round: nothing if a request has ended it. -/
def afterRound (head : ModuleHead) (items : List Item) (p : Progress (List Emitted)) :
    Except ExpansionFault Tokens :=
  match p.aborted? with
  | some text => .error (.failure (.abort text))
  | none => .ok (withViews head items p)

theorem afterRound_ok_iff {p : Progress (List Emitted)} :
    afterRound head items p = .ok tokens ↔ p.aborted? = none ∧ tokens = withViews head items p := by
  unfold afterRound
  cases p.aborted? <;> simp [eq_comm]

theorem expandModule_eq (settings : Settings) (head : ModuleHead) (items : List Item) :
    expandModule settings head items = (round settings [unraw head.name] items).bind
      fun (r, renderer) => afterRound head items (r.run renderer Sink.memory {} []) := by
  unfold expandModule round
  dsimp only
  cases (SourceUnit.ofItems (fun _ => default) [unraw head.name] items).mapError
    ExpansionFault.attributes with
  | error f => rfl
  | ok u =>
    dsimp only [bind, Except.bind]
    split
    · rfl
    · cases settings.libraryPath.mapError ExpansionFault.failure with
      | error f => rfl
      | ok library =>
        cases settings.derivePaths.mapError ExpansionFault.failure with
        | error f => rfl
        | ok derives =>
          dsimp only [pure, Except.pure, afterRound]
          generalize Progress.aborted? _ = ended
          cases ended <;> rfl

theorem round_ok {r : Round} {renderer : Renderer}
    (h : round settings scope items = .ok (r, renderer)) :
    ∃ u, SourceUnit.ofItems (fun _ => default) scope items = .ok u ∧ r.model = u.model ∧
      r.bearers = u.bearers ∧ ∀ b ∈ u.bearers, ∀ m ∈ places b, m = scope := by
  obtain ⟨u, read, h⟩ := bind_ok_iff.1 h
  split at h
  · cases h
  · rename_i here
    obtain ⟨library, -, h⟩ := bind_ok_iff.1 h
    obtain ⟨derives, -, h⟩ := bind_ok_iff.1 h
    cases h
    exact ⟨u, mapError_ok_iff.1 read, rfl, rfl, by simpa using here⟩

/-- Let a module be expanded that is called by a word and whose records and attributes are written
in words. All that is generated is in the module, and no request asks for another one. If the type
that a request asks for would be elsewhere, for the sake of its target, the request fails or is put
off. It is skipped only if a unit has the text of its name; then one of the two simple names has a
colon in it. -/
theorem expandModule_home (named : Wordy head.name) (worded : ∀ i ∈ items, i.isWorded = true)
    (expanded : expandModule settings head items = .ok tokens) :
    ∃ r renderer, round settings [unraw head.name] items = .ok (r, renderer) ∧
      let p := r.run renderer Sink.memory {} []
      tokens = withViews head items p ∧
      (∀ b ∈ r.bearers, ∀ m ∈ places b, m = [unraw head.name]) ∧
      (∀ u ∈ p.sink, u.name.module = [unraw head.name]) ∧
      List.Forall₂ r.Concludes (Task.ofBearers r.bearers) p.outcomes ∧
      ∀ o ∈ p.outcomes, o.generated.module ≠ [unraw head.name] → o.Idle p.sink := by
  rw [expandModule_eq] at expanded
  obtain ⟨⟨r, renderer⟩, carried, given⟩ := bind_ok_iff.1 expanded
  obtain ⟨finished, rfl⟩ := afterRound_ok_iff.1 given
  obtain ⟨u, read, model, bearers, here⟩ := round_ok carried
  have hs : WordyScope [unraw head.name] := fun w hw => List.mem_singleton.1 hw ▸ named.unraw
  have own := SourceUnit.own_of_ofItems hs worded read
  have placed : ∀ t ∈ Task.ofBearers r.bearers, t.Placed r [unraw head.name] := fun t ht =>
    Task.placed_of_mem own hs here model (bearers ▸ ht)
  have home : Round.Home [unraw head.name] (r.run renderer Sink.memory {} []) := by
    have stepped := Round.run_eq_foldl_step finished
    exact stepped ▸ Round.Home.foldl hs placed (.start _) (stepped ▸ finished)
  have concluded := Round.concludes_of_finished finished
  exact ⟨r, renderer, carried, rfl, bearers ▸ here, home.units, concluded, home.outcomes⟩

/-- A record that asks for a view and a meta type of itself, and by the given name for a view of a
record outside the module. -/
def ghostModule (name : String) : List Item := [
  .record { (default : Grammar.RecordItem) with
    attributes := [
      { path := .ofNames ["view_of"], args := .bare },
      { path := .ofNames ["view_of"]
        args := .list .paren [.ident "target", .punct '=' false, .ident "super", .punct ':' true,
          .punct ':' false, .ident "Ghost", .punct ',' false, .ident "gen_name", .punct '=' false,
          .literal (Text.quote name)] },
      { path := .ofNames ["view_meta"], args := .bare }]
    name := "Person"
    fields := .named [{ (default : Grammar.Field) with
      name := "name"
      ty := .path (.ofNames ["String"]) }] false }]

def ghostHead : ModuleHead :=
  { (default : ModuleHead) with name := "m" }

/-- How the requests of these records end, beside the names that they ask for. -/
def ghostOutcomes (name : String) : Option (List (TypeName × OutcomeState)) :=
  (round {} ["m"] (ghostModule name)).toOption.map fun (r, renderer) =>
    (r.run renderer Sink.memory {} []).outcomes.map fun o => (o.generated, o.state)

theorem ghosts_expanded {name : String} {outcomes : List (TypeName × OutcomeState)}
    (h : ghostOutcomes name = some outcomes)
    (harmless : outcomes.findSome? (·.2.abort?) = none) :
    ∃ tokens, expandModule {} ghostHead (ghostModule name) = .ok tokens := by
  have scope : [unraw ghostHead.name] = ["m"] := by decide
  unfold ghostOutcomes at h
  rw [expandModule_eq, scope]
  cases carried : round {} ["m"] (ghostModule name) with
  | error f =>
    rw [carried] at h
    cases h
  | ok both =>
    rw [carried] at h
    obtain rfl := Option.some.inj h
    rw [List.findSome?_map] at harmless
    exact ⟨_, afterRound_ok_iff.2 ⟨harmless, rfl⟩⟩

/-- Here what is about the record is generated, and the other request fails. -/
theorem ghost_fails :
    Wordy ghostHead.name ∧ (∀ i ∈ ghostModule "GhostView", i.isWorded = true) ∧
      ghostOutcomes "GhostView" =
        some [(⟨["m"], "PersonView"⟩, .rendered), (⟨[], "GhostView"⟩, .failed),
          (⟨["m"], "PersonMeta"⟩, .rendered)] ∧
      ∃ tokens, expandModule {} ghostHead (ghostModule "GhostView") = .ok tokens ∧
        ∃ r renderer,
          round {} [unraw ghostHead.name] (ghostModule "GhostView") = .ok (r, renderer) ∧
          let p := r.run renderer Sink.memory {} []
          tokens = withViews ghostHead (ghostModule "GhostView") p ∧
          ∀ u ∈ p.sink, u.name.module = [unraw ghostHead.name] := by
  have named : Wordy ghostHead.name := by decide
  have worded : ∀ i ∈ ghostModule "GhostView", i.isWorded = true := by decide +kernel
  have outcomes : ghostOutcomes "GhostView" =
      some [(⟨["m"], "PersonView"⟩, .rendered), (⟨[], "GhostView"⟩, .failed),
          (⟨["m"], "PersonMeta"⟩, .rendered)] := by decide +kernel
  obtain ⟨tokens, expanded⟩ := ghosts_expanded outcomes rfl
  obtain ⟨r, renderer, carried, made, -, units, -, -⟩ := expandModule_home named worded expanded
  exact ⟨named, worded, outcomes, tokens, expanded, r, renderer, carried, made, units⟩

/-- If the other request asks for a name that reads like that of the view, it is skipped. -/
theorem ghost_skipped :
    (∃ tokens, expandModule {} ghostHead (ghostModule "m::PersonView") = .ok tokens) ∧
      ghostOutcomes "m::PersonView" =
        some [(⟨["m"], "PersonView"⟩, .rendered), (⟨[], "m::PersonView"⟩, .duplicate),
          (⟨["m"], "PersonMeta"⟩, .rendered)] := by
  have outcomes : ghostOutcomes "m::PersonView" =
      some [(⟨["m"], "PersonView"⟩, .rendered), (⟨[], "m::PersonView"⟩, .duplicate),
          (⟨["m"], "PersonMeta"⟩, .rendered)] := by
    decide +kernel
  exact ⟨ghosts_expanded outcomes rfl, outcomes⟩

end Expansion

end RecordViews
