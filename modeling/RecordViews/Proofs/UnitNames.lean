import RecordViews.Proofs.Entries
import RecordViews.Proofs.FieldNames
import RecordViews.Round.Session

/-! The types that the units of several rounds define. A unit is skipped if its name was generated
before, and names are compared as texts; the type is the identifier of the simple name. `Kept` is
what every request keeps of the units so far: their texts differ, all of them are known, and each
defines a type of its identifier. So two units of one module define one type only if their names
are two spellings of it. -/

namespace RecordViews

open Grammar (Path)

/-- What a unit defines. -/
inductive GeneratedType where
  | record (g : GeneratedRecord)
  | constants (g : GeneratedConstants)

namespace GeneratedType

def name : GeneratedType → String
  | .record g => g.name
  | .constants g => g.name

def tokens (derives : List Path) : GeneratedType → Tokens
  | .record g => g.tokens derives
  | .constants g => g.tokens

end GeneratedType

/-- The unit is the type, which goes by the identifier of the unit's simple name. -/
structure Emitted.Defines (u : Emitted) (derives : List Path) (t : GeneratedType) : Prop where
  tokens : u.tokens = t.tokens derives
  name : identifier? u.name.simple = some t.name

section Rendering

variable {r : Round} {derives : List Path} {tokens : Tokens}

theorem GeneratedConstants.ofMetaType_name {m : MetaType} {g : GeneratedConstants}
    (h : ofMetaType m = .ok g) : identifier? m.name.simple = some g.name := by
  obtain ⟨name, word, h⟩ := bind_ok_iff.1 h
  obtain ⟨constants, -, h⟩ := bind_ok_iff.1 h
  obtain rfl := Except.ok.inj h
  exact identifier?_eq_some_iff.2 (GeneratedRecord.written_ok word)

theorem Round.resolveMeta_name {bearer : Bearer} {request : MetaRequest} {m : MetaType}
    (h : r.resolveMeta bearer request = .ok m) : m.name = r.metaName bearer request := by
  obtain ⟨_, -, h⟩ := bind_ok_iff.1 h
  split at h
  · cases h
  · split at h
    · cases h
    · obtain rfl := Except.ok.inj h
      rfl

/-- Whatever is rendered goes by the identifier of the name that was asked for. -/
theorem Task.render_defines {t : Task}
    (h : (t.render r (.ofDerives derives)).result = .ok tokens) :
    ∃ type, Emitted.Defines ⟨t.generated r, tokens⟩ derives type := by
  cases t with
  | view b request =>
    obtain ⟨v, resolved, h⟩ := bind_ok_iff.1 h
    obtain ⟨g, made, rfl⟩ := map_ok_iff.1 h
    obtain ⟨-, -, -, -, -, -, named⟩ := Round.resolveView_ok resolved
    obtain ⟨slots, w⟩ := GeneratedRecord.ofView_writes made
    refine ⟨.record g, rfl, ?_⟩
    rw [generated, ← named]
    exact w.name
  | metaType b request =>
    obtain ⟨m, resolved, h⟩ := bind_ok_iff.1 h
    obtain ⟨g, made, rfl⟩ := map_ok_iff.1 h
    refine ⟨.constants g, rfl, ?_⟩
    rw [generated, ← Round.resolveMeta_name resolved]
    exact GeneratedConstants.ofMetaType_name made

end Rendering

structure Kept (derives : List Path) (g : GeneratedNames) (units : List Emitted) : Prop where
  known : ∀ u ∈ units, g.contains u.name = true
  once : units.Pairwise fun u u' => u.name.text ≠ u'.name.text
  defined : ∀ u ∈ units, ∃ type, u.Defines derives type

namespace Kept

variable {derives : List Path} {g : GeneratedNames} {units : List Emitted}

theorem start (derives : List Path) (g : GeneratedNames) : Kept derives g [] :=
  ⟨by simp, .nil, by simp⟩

theorem add (kept : Kept derives g units) {u : Emitted} (new : g.contains u.name = false)
    (defines : ∃ type, u.Defines derives type) :
    Kept derives (g.insert u.name) (units ++ [u]) := by
  refine ⟨?_, ?_, List.forall_mem_append.2 ⟨kept.defined, List.forall_mem_singleton.2 defines⟩⟩
  · intro u' hu'
    rw [GeneratedNames.contains_insert]
    rcases List.mem_append.1 hu' with hu' | hu'
    · exact Or.inl (kept.known u' hu')
    · exact Or.inr (congrArg (·.name.text) (List.mem_singleton.1 hu').symm)
  · rw [List.pairwise_append]
    refine ⟨kept.once, List.pairwise_singleton _ _, ?_⟩
    intro u' hu' u'' hu'' same
    obtain rfl := List.mem_singleton.1 hu''
    -- the text of the new unit would be that of a known one
    obtain ⟨m, hm, e⟩ := GeneratedNames.contains_iff.1 (kept.known u' hu')
    exact GeneratedNames.contains_eq_false_iff.1 new m hm (e.trans same)

theorem step (r : Round) {p : Progress (List Emitted)} (kept : Kept derives p.generated p.sink)
    (t : Task) :
    Kept derives (r.step (.ofDerives derives) Sink.memory p t).generated
      (r.step (.ofDerives derives) Sink.memory p t).sink := by
  have ends := r.step_ends (.ofDerives derives) Sink.memory p t
  generalize r.step (.ofDerives derives) Sink.memory p t = q at ends
  cases ends with
  | deferred _ _ => exact kept
  | duplicate _ _ => exact kept
  | failed _ _ _ _ _ => exact kept
  | aborted _ _ _ _ => exact kept
  -- this sink takes every unit
  | refused _ _ _ _ _ _ refusal => cases (Prod.mk.inj refusal).1
  | rendered tokens s _ new made taken =>
    obtain rfl := (Prod.mk.inj taken).2
    exact kept.add new (Task.render_defines made)

theorem foldl (r : Round) (ts : List Task) {p : Progress (List Emitted)}
    (kept : Kept derives p.generated p.sink) :
    Kept derives (ts.foldl (r.proceed (.ofDerives derives) Sink.memory) p).generated
      (ts.foldl (r.proceed (.ofDerives derives) Sink.memory) p).sink := by
  induction ts generalizing p with
  | nil => exact kept
  | cons t rest ih =>
    rw [List.foldl_cons]
    rcases r.proceed_cases (.ofDerives derives) Sink.memory p t with done | halted
    · rw [done]
      exact ih (kept.step r t)
    · rw [halted]
      exact ih kept

theorem run (r : Round) (kept : Kept derives g units) :
    Kept derives (r.run (.ofDerives derives) Sink.memory g units).generated
      (r.run (.ofDerives derives) Sink.memory g units).sink := by
  unfold Round.run
  exact foldl r (Task.ofBearers r.bearers) kept

theorem session {s : Session (List Emitted)} (kept : Kept derives s.generated s.sink)
    (rounds : List Round) :
    Kept derives (s.run (.ofDerives derives) Sink.memory rounds).generated
      (s.run (.ofDerives derives) Sink.memory rounds).sink := by
  induction rounds generalizing s with
  | nil => exact kept
  | cons r rest ih =>
    refine ih ?_
    unfold Session.next
    split
    · exact kept
    · exact kept.run r

end Kept

/-- Two units of one module have different simple names. If both are one word apart from a mark,
the units define types of one name exactly if one simple name is the other with the mark of a raw
identifier. -/
def Emitted.Apart (derives : List Path) (u u' : Emitted) : Prop :=
  u.name.module = u'.name.module →
    u.name.simple ≠ u'.name.simple ∧
      ∀ t t', u.Defines derives t → u'.Defines derives t' →
        Plain u.name.simple → Plain u'.name.simple →
          (t.name = t'.name ↔
            u.name.simple = "r#" ++ u'.name.simple ∨ u'.name.simple = "r#" ++ u.name.simple)

theorem Emitted.apart {derives : List Path} {u u' : Emitted} (h : u.name.text ≠ u'.name.text) :
    u.Apart derives u' := by
  intro module
  have simple : u.name.simple ≠ u'.name.simple := by
    intro same
    exact h (by rw [TypeName.text, TypeName.text, module, same])
  refine ⟨simple, fun t t' defines defines' plain plain' => ?_⟩
  rw [← plain.same_identifier_iff plain' simple defines.name, defines.name, defines'.name,
    Option.some.injEq]

/-- The units of any rounds each define a type, and any two of one module are apart. -/
theorem Session.units_define (derives : List Path) (g : GeneratedNames) (rounds : List Round) :
    let units := (Session.run (.ofDerives derives) Sink.memory
      { generated := g, sink := [] } rounds).sink
    (∀ u ∈ units, ∃ t, u.Defines derives t) ∧ units.Pairwise (Emitted.Apart derives) := by
  have kept := (Kept.start derives g).session (s := { generated := g, sink := [] }) rounds
  exact ⟨kept.defined, kept.once.imp Emitted.apart⟩

def rowNamed (name : String) : ViewRequest where
  includes := ["name"]
  genName := some name

/-- A person who asks for two views, each under a name of its own, and for the member names. -/
def clerk (names : List String) : Bearer where
  name := ⟨["crate"], "Person"⟩
  requests := names.map rowNamed
  metas := [{}]

def office (names : List String) : Round :=
  { register "nick" with bearers := [clerk names] }

def filed (names : List String) : List Emitted :=
  (Session.run (.ofDerives []) Sink.memory { generated := {}, sink := [] } [office names]).sink

theorem plain_names_apart :
    (filed ["Row", "type"]).map (fun u => identifier? u.name.simple) =
      [some "Row", some "r#type", some "PersonMeta"] ∧
    (∀ u ∈ filed ["Row", "type"], u.name.module = ["crate"] ∧ Plain u.name.simple) ∧
    (filed ["Row", "type"]).Pairwise (Emitted.Apart []) :=
  ⟨by decide, by decide, (Session.units_define [] {} [office ["Row", "type"]]).2⟩

/-- Two units of one module define one type. -/
theorem marked_names_collide :
    ∃ u u' t t', (filed ["Row", "r#Row"]).take 2 = [u, u'] ∧
      u.name.module = u'.name.module ∧ u.name ≠ u'.name ∧
      u.Defines [] t ∧ u'.Defines [] t' ∧ t.name = "Row" ∧ t'.name = "Row" :=
  ⟨_, _, .record _, .record _, rfl, rfl, by decide, ⟨rfl, rfl⟩, ⟨rfl, rfl⟩, rfl, rfl⟩

end RecordViews
