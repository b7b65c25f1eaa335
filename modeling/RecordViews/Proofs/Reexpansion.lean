import RecordViews.Proofs.GeneratedItems
import RecordViews.Proofs.UnitNames

/-! Expanding a module again. What is left of its own items asks for nothing, and neither does what
was generated behind them. So the expanded module is expanded to itself. -/

namespace RecordViews

open Grammar (Item ModuleHead Attribute Path)

namespace GeneratedType

def items (derives : List Path) : GeneratedType → List Item
  | .record g => g.items derives
  | .constants g => g.items

theorem renders_items (derives : List Path) (t : GeneratedType) :
    Renders (t.items derives) (t.tokens derives) := by
  cases t with
  | record g => exact g.renders_items derives
  | constants g => exact g.renders_items

end GeneratedType

theorem renders_units {derives : List Path} {units : List Emitted}
    (defined : ∀ u ∈ units, ∃ t, u.Defines derives t) :
    ∃ ts : List GeneratedType,
      Renders (ts.flatMap (·.items derives)) (units.flatMap (·.tokens)) := by
  induction units with
  | nil => exact ⟨[], .nil⟩
  | cons u rest ih =>
    obtain ⟨⟨t, defines⟩, others⟩ := List.forall_mem_cons.1 defined
    obtain ⟨ts, rendered⟩ := ih others
    refine ⟨t :: ts, ?_⟩
    rw [List.flatMap_cons, List.flatMap_cons, defines.tokens]
    exact (t.renders_items derives).append rendered

theorem renders_diagnostics (ds : List Diagnostic) :
    Renders (ds.map fun d => .other d.tokens) (ds.flatMap Diagnostic.tokens) := by
  rw [List.map_eq_flatMap]
  exact Renders.flatMap fun d _ => d.renders_item

theorem renders_stripped (items : List Item) :
    Renders (items.map Item.withoutHelpers) (Item.listTokens (items.map Item.withoutHelpers)) := by
  refine ⟨rfl, ?_⟩
  rw [List.map_map]
  exact List.map_congr_left fun item _ => item.withoutHelpers_withoutHelpers

namespace Expansion

variable {settings : Settings} {head : ModuleHead} {scope : Scope} {items : List Item}
  {tokens : Tokens} {library : Path} {derives : List Path} {r : Round} {renderer : Renderer}

theorem round_settings (carried : round settings scope items = .ok (r, renderer)) :
    ∃ library derives, settings.libraryPath = .ok library ∧ settings.derivePaths = .ok derives ∧
      renderer = .ofDerives derives := by
  obtain ⟨u, -, carried⟩ := bind_ok_iff.1 carried
  split at carried
  · cases carried
  · obtain ⟨library, found, carried⟩ := bind_ok_iff.1 carried
    obtain ⟨derives, given, carried⟩ := bind_ok_iff.1 carried
    cases carried
    exact ⟨library, derives, mapError_ok_iff.1 found, mapError_ok_iff.1 given, rfl⟩

/-- Where nothing can be taken out, the round has nothing to do. -/
theorem round_of_free (scope : Scope) (free : items.map Item.withoutHelpers = items)
    (found : settings.libraryPath = .ok library) (given : settings.derivePaths = .ok derives) :
    ∃ r, round settings scope items = .ok (r, .ofDerives derives) ∧ r.bearers = [] := by
  obtain ⟨u, read, none⟩ := SourceUnit.ofItems_free (fun _ => default) scope free
  unfold round
  rw [read, found, given]
  refine ⟨⟨settings, library, u.model, u.bearers⟩, ?_, none⟩
  simp only [Except.mapError, bind, Except.bind, none]
  rfl

theorem expandModule_free (free : items.map Item.withoutHelpers = items)
    (found : settings.libraryPath = .ok library) (given : settings.derivePaths = .ok derives) :
    expandModule settings head items =
      .ok (Item.moduleTokens head (Item.listTokens items)) := by
  obtain ⟨r, carried, none⟩ := round_of_free [unraw head.name] free found given
  have idle : r.run (.ofDerives derives) Sink.memory {} [] = { generated := {}, sink := [] } := by
    rw [Round.run, none]
    rfl
  rw [expandModule_eq, carried]
  refine afterRound_ok_iff.2 ⟨by rw [idle]; rfl, ?_⟩
  rw [idle, withViews, free]
  simp

/-- The items of a module that is expanded: its own ones, the types that are generated for it, and
the messages. -/
def expanded (derives : List Path) (items : List Item) (ts : List GeneratedType)
    (ds : List Diagnostic) : List Item :=
  items.map Item.withoutHelpers ++ ts.flatMap (·.items derives) ++ ds.map fun d => .other d.tokens

theorem expandModule_again (once : expandModule settings head items = .ok tokens) :
    ∃ derives ts ds, Renders (expanded derives items ts ds)
        (Item.listTokens (expanded derives items ts ds)) ∧
      tokens = Item.moduleTokens head (Item.listTokens (expanded derives items ts ds)) ∧
      expandModule settings head (expanded derives items ts ds) = .ok tokens := by
  rw [expandModule_eq] at once
  obtain ⟨⟨r, renderer⟩, carried, once⟩ := bind_ok_iff.1 once
  obtain ⟨-, rfl⟩ := afterRound_ok_iff.1 once
  obtain ⟨library, derives, found, given, rfl⟩ := round_settings carried
  let p := r.run (.ofDerives derives) Sink.memory {} []
  have kept : Kept derives p.generated p.sink := (Kept.start derives {}).run r
  obtain ⟨ts, units⟩ := renders_units kept.defined
  have whole := ((renders_stripped items).append units).append (renders_diagnostics p.diagnostics)
  have tokens : withViews head items p = Item.moduleTokens head
      (Item.listTokens (expanded derives items ts p.diagnostics)) :=
    congrArg (Item.moduleTokens head) whole.text.symm
  exact ⟨derives, ts, p.diagnostics, ⟨rfl, whole.free⟩, tokens,
    (expandModule_free whole.free found given).trans (congrArg _ tokens.symm)⟩

/-- Items are stripped of the helper attributes on records and on functions in blocks, and keep
everything else. They can be read then, and no bearer is found in them: all that asks for something,
changes a member or is a fault is read of what was taken out. So a module that was expanded consists
of items that ask for nothing, and expanding it again changes nothing. -/
theorem nothing_left_to_expand (items : List Item) :
    (∀ kept, kept = items.map Item.withoutHelpers ↔ List.Forall₂ Item.Sheds items kept) ∧
    (∀ locate scope, ∃ u,
      SourceUnit.ofItems locate scope (items.map Item.withoutHelpers) = .ok u ∧ u.bearers = []) ∧
    (∀ scope, ∀ finding ∈ Finding.ofModules [(scope, items)],
      finding.Silent ∨ finding.OfHelper scope items) ∧
    ∀ settings head tokens, expandModule settings head items = .ok tokens →
      ∃ derives ts ds, let again := expanded derives items ts ds
        tokens = Item.moduleTokens head (Item.listTokens again) ∧
        (∃ u, SourceUnit.ofItems (fun _ => default) [unraw head.name] again = .ok u ∧
          u.bearers = []) ∧
        expandModule settings head again = .ok tokens := by
  refine ⟨fun kept => Item.forall₂_sheds_iff.symm, fun locate scope => ?_,
    fun scope finding => Finding.silent_or_ofHelper, fun settings head tokens once => ?_⟩
  · exact SourceUnit.ofItems_free locate scope (renders_stripped items).free
  · obtain ⟨derives, ts, ds, whole, made, again⟩ := expandModule_again once
    exact ⟨derives, ts, ds, made, SourceUnit.ofItems_free _ _ whole.free, again⟩

/-- A module with every helper: a person asks for a view and a meta type, and has a function that
gives one more member. -/
def labelModule : List Item := [
  .record { (default : Grammar.RecordItem) with
    attributes := [
      { path := .ofNames ["non_exhaustive"], args := .bare },
      { path := .ofNames ["view_synth", "view_of"], args := .bare },
      { path := .ofNames ["view_meta"], args := .bare }]
    name := "Person"
    fields := .named [{ (default : Grammar.Field) with
      name := "name"
      ty := .path (.ofNames ["String"]) }] false },
  .block { (default : Grammar.BlockItem) with
    selfType := .path (.ofNames ["Person"])
    members := [.function (SourceUnit.labelFunction (.ofNames ["Person"]))] }]

def labelHead : ModuleHead :=
  { (default : ModuleHead) with name := "m" }

/-- Two types are generated for this module, and no more when it is expanded again. -/
theorem labelModule_expanded_again :
    (∃ tokens, expandModule {} labelHead labelModule = .ok tokens ∧
      ∃ derives ts ds,
        tokens = Item.moduleTokens labelHead
          (Item.listTokens (expanded derives labelModule ts ds)) ∧
        expandModule {} labelHead (expanded derives labelModule ts ds) = .ok tokens) ∧
    (round {} ["m"] labelModule).toOption.map (fun (r, renderer) =>
        (r.run renderer Sink.memory {} []).sink.map (·.name)) =
      some [⟨["m"], "PersonView"⟩, ⟨["m"], "PersonMeta"⟩] := by
  have outcomes : (round {} ["m"] labelModule).toOption.map (fun (r, renderer) =>
        let p := r.run renderer Sink.memory {} []
        (p.sink.map (·.name), p.aborted?)) =
      some ([⟨["m"], "PersonView"⟩, ⟨["m"], "PersonMeta"⟩], none) := by
    decide +kernel
  obtain ⟨⟨r, renderer⟩, carried, ended⟩ := Option.map_eq_some_iff.1 outcomes
  obtain ⟨units, harmless⟩ := Prod.mk.inj ended
  have scope : [unraw labelHead.name] = ["m"] := by decide
  obtain ⟨tokens, once⟩ : ∃ tokens, expandModule {} labelHead labelModule = .ok tokens := by
    rw [expandModule_eq, scope, toOption_eq_some_iff.1 carried]
    exact ⟨_, afterRound_ok_iff.2 ⟨harmless, rfl⟩⟩
  obtain ⟨-, -, -, after⟩ := nothing_left_to_expand labelModule
  obtain ⟨derives, ts, ds, made, -, again⟩ := after {} labelHead tokens once
  refine ⟨⟨tokens, once, derives, ts, ds, made, again⟩, ?_⟩
  rw [carried]
  exact congrArg some units

end Expansion

end RecordViews
