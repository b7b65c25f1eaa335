import RecordViews.Proofs.Customising
import RecordViews.Proofs.GeneratedNames
import RecordViews.Proofs.Priority

/-! A round into a sink that keeps every unit, as the list of what each of its requests adds, up to
one that ends it. What a request adds depends on the requests before it only through one question:
was its name generated before? So requests can be looked at on their own where nobody else asks for
their names. -/

namespace RecordViews

/-- What a request adds to a round. -/
structure Entry where
  outcome : Outcome
  diagnostics : List Diagnostic
  units : List Emitted := []

/-- The text with which the request ends the round. -/
def Entry.abort? (e : Entry) : Option String :=
  e.outcome.state.abort?

def Entry.result (e : Entry) : Outcome × List Emitted :=
  (e.outcome, e.units)

namespace Task

/-- What the request adds where the names `g` were generated before. -/
def entry (r : Round) (renderer : Renderer) (g : GeneratedNames) (t : Task) : Entry :=
  match t.deferredTo? r with
  | some w =>
    ⟨t.outcome r (.deferred w), [.warning t.bearer.name t.target (t.deferralMessage r w)], []⟩
  | none =>
    if g.contains (t.generated r) then
      ⟨t.outcome r .duplicate, [.warning t.bearer.name t.target (t.repeatMessage r)], []⟩
    else
      let v := t.render r renderer
      match v.result with
      | .error f =>
        match f.abort? with
        | some text => ⟨t.outcome r (.aborted text), [], []⟩
        | none =>
          ⟨t.outcome r .failed, v.diagnostics ++ [.error t.bearer.name t.target f.message], []⟩
      | .ok tokens => ⟨t.outcome r .rendered, v.diagnostics, [⟨t.generated r, tokens⟩]⟩

end Task

namespace GeneratedNames

def insertUnits (g : GeneratedNames) (units : List Emitted) : GeneratedNames :=
  units.foldl (fun g u => g.insert u.name) g

@[simp] theorem insertUnits_nil (g : GeneratedNames) : g.insertUnits [] = g := rfl

theorem insertUnits_cons (g : GeneratedNames) (u : Emitted) (us : List Emitted) :
    g.insertUnits (u :: us) = (g.insert u.name).insertUnits us := rfl

@[simp] theorem insertUnits_append (g : GeneratedNames) (us us' : List Emitted) :
    g.insertUnits (us ++ us') = (g.insertUnits us).insertUnits us' :=
  List.foldl_append

theorem contains_insert (g : GeneratedNames) (n m : TypeName) :
    (g.insert n).contains m = true ↔ g.contains m = true ∨ n.text = m.text := by
  cases h : g.contains n with
  | true =>
    rw [insert, if_pos h]
    constructor
    · exact Or.inl
    · rintro (hm | e)
      · exact hm
      · obtain ⟨k, hk, ek⟩ := contains_iff.1 h
        exact contains_iff.2 ⟨k, hk, ek.trans e⟩
  | false =>
    have := (insert_perm h).trans (List.perm_append_singleton n g.names).symm
    rw [contains_of_perm this]
    simp

theorem contains_insertUnits (g : GeneratedNames) (units : List Emitted) (n : TypeName) :
    (g.insertUnits units).contains n = true ↔
      g.contains n = true ∨ ∃ u ∈ units, u.name.text = n.text := by
  induction units generalizing g with
  | nil => simp
  | cons u rest ih =>
    rw [insertUnits_cons, ih, contains_insert]
    simp [or_assoc]

end GeneratedNames

namespace Round

variable {r : Round} {renderer : Renderer}

/-- What the requests add one after the other, if none of them ends the round. -/
def entries (r : Round) (renderer : Renderer) (g : GeneratedNames) : List Task → List Entry
  | [] => []
  | t :: rest =>
    let e := t.entry r renderer g
    e :: r.entries renderer (g.insertUnits e.units) rest

/-- The entries up to one that ends the round. -/
def reached : List Entry → List Entry
  | [] => []
  | e :: rest => e :: if e.abort?.isSome then [] else reached rest

def addEntries (p : Progress (List Emitted)) (es : List Entry) : Progress (List Emitted) where
  generated := p.generated.insertUnits (es.flatMap (·.units))
  sink := p.sink ++ es.flatMap (·.units)
  outcomes := p.outcomes ++ es.map (·.outcome)
  diagnostics := p.diagnostics ++ es.flatMap (·.diagnostics)

theorem reached_cons_of_running {e : Entry} (running : e.abort? = none) (es : List Entry) :
    reached (e :: es) = e :: reached es := by
  rw [reached, running]
  rfl

theorem reached_cons_of_ended {e : Entry} {text : String} (ended : e.abort? = some text)
    (es : List Entry) : reached (e :: es) = [e] := by
  rw [reached, ended]
  rfl

theorem addEntries_cons (p : Progress (List Emitted)) (e : Entry) (es : List Entry) :
    addEntries (addEntries p [e]) es = addEntries p (e :: es) := by
  simp [addEntries]

theorem step_memory (r : Round) (renderer : Renderer) (p : Progress (List Emitted)) (t : Task) :
    r.step renderer Sink.memory p t = addEntries p [t.entry r renderer p.generated] := by
  have ends := r.step_ends renderer Sink.memory p t
  generalize r.step renderer Sink.memory p t = q at ends
  unfold Task.entry
  cases ends with
  | deferred w put =>
    simp [put, addEntries, Progress.finish]
  | duplicate turn old =>
    simp [turn, old, addEntries, Progress.finish]
  | failed f turn new bad harmless =>
    simp [turn, new, bad, harmless, addEntries, Progress.finish]
  | aborted text turn new bad =>
    simp [turn, new, bad, Failure.abort?, addEntries, Progress.finish]
  | refused tokens f s turn new made refusal => simp [Sink.memory] at refusal
  | rendered tokens s turn new made taken =>
    obtain rfl : p.sink ++ [⟨t.generated r, tokens⟩] = s := by simpa [Sink.memory] using taken
    simp [turn, new, made, addEntries, GeneratedNames.insertUnits, Progress.finish]

theorem addEntries_aborted? (p : Progress (List Emitted)) (es : List Entry) :
    (addEntries p es).aborted? = p.aborted?.or (es.findSome? Entry.abort?) := by
  rw [Progress.aborted?, addEntries, List.findSome?_append, List.findSome?_map]
  rfl

theorem foldl_memory (r : Round) (renderer : Renderer) (ts : List Task)
    (p : Progress (List Emitted)) (running : p.aborted? = none) :
    ts.foldl (r.proceed renderer Sink.memory) p =
      addEntries p (reached (r.entries renderer p.generated ts)) := by
  induction ts generalizing p with
  | nil => simp [entries, reached, addEntries]
  | cons t rest ih =>
    have first : r.proceed renderer Sink.memory p t = r.step renderer Sink.memory p t :=
      if_neg (by simp [running])
    have halted : (addEntries p [t.entry r renderer p.generated]).aborted? =
        (t.entry r renderer p.generated).abort? := by
      rw [addEntries_aborted?, running]
      simp
    rw [List.foldl_cons, first, step_memory, entries]
    cases ended : (t.entry r renderer p.generated).abort? with
    | some text =>
      rw [foldl_proceed_of_aborted (by rw [halted, ended]; nofun), reached_cons_of_ended ended]
    | none =>
      have generated : (addEntries p [t.entry r renderer p.generated]).generated =
          p.generated.insertUnits (t.entry r renderer p.generated).units := by simp [addEntries]
      rw [ih _ (halted.trans ended), generated, reached_cons_of_running ended]
      exact addEntries_cons p _ _

/-- A round into a sink that keeps every unit is the list of its entries, up to one that ends it. -/
theorem run_memory (r : Round) (renderer : Renderer) (g : GeneratedNames) (units : List Emitted) :
    r.run renderer Sink.memory g units =
      addEntries { generated := g, sink := units }
        (reached (r.entries renderer g (Task.ofBearers r.bearers))) :=
  r.foldl_memory renderer _ _ rfl

theorem findSome?_reached (es : List Entry) :
    (reached es).findSome? Entry.abort? = es.findSome? Entry.abort? := by
  induction es with
  | nil => rfl
  | cons e rest ih =>
    rw [reached, List.findSome?_cons, List.findSome?_cons]
    cases ended : e.abort? with
    | some text => rfl
    | none => exact ih

theorem run_memory_aborted? (r : Round) (renderer : Renderer) (g : GeneratedNames)
    (units : List Emitted) :
    (r.run renderer Sink.memory g units).aborted? =
      (r.entries renderer g (Task.ofBearers r.bearers)).findSome? Entry.abort? := by
  rw [run_memory, addEntries_aborted?, findSome?_reached]
  rfl

/-- If no request ends the round, all are carried out. -/
theorem reached_eq_self {es : List Entry} (none : es.findSome? Entry.abort? = none) :
    reached es = es := by
  induction es with
  | nil => rfl
  | cons e rest ih =>
    obtain ⟨first, others⟩ := List.forall_mem_cons.1 (List.findSome?_eq_none_iff.1 none)
    rw [reached_cons_of_running first, ih (List.findSome?_eq_none_iff.2 others)]

theorem entries_append (g : GeneratedNames) (ts us : List Task) :
    r.entries renderer g (ts ++ us) =
      r.entries renderer g ts ++
        r.entries renderer (g.insertUnits ((r.entries renderer g ts).flatMap (·.units))) us := by
  induction ts generalizing g with
  | nil => rfl
  | cons t rest ih =>
    simp only [List.cons_append, entries, ih, List.flatMap_cons,
      GeneratedNames.insertUnits_append]

/-- A unit has the name that its request asks for, and the request is not put off. -/
theorem entry_units {g : GeneratedNames} {t : Task} {u : Emitted}
    (hu : u ∈ (t.entry r renderer g).units) :
    u.name = t.generated r ∧ t.deferredTo? r = none := by
  unfold Task.entry at hu
  split at hu
  · simp at hu
  · rename_i turn
    split at hu
    · simp at hu
    · dsimp only at hu
      split at hu
      · split at hu <;> simp at hu
      · obtain rfl := List.mem_singleton.1 hu
        exact ⟨rfl, turn⟩

theorem entries_units {g : GeneratedNames} {ts : List Task} {u : Emitted}
    (hu : u ∈ (r.entries renderer g ts).flatMap (·.units)) :
    ∃ t ∈ ts, u.name = t.generated r ∧ t.deferredTo? r = none := by
  induction ts generalizing g with
  | nil => simp [entries] at hu
  | cons t rest ih =>
    rw [entries, List.flatMap_cons] at hu
    rcases List.mem_append.1 hu with hu | hu
    · exact ⟨t, List.mem_cons_self, entry_units hu⟩
    · obtain ⟨t', ht', h⟩ := ih hu
      exact ⟨t', List.mem_cons_of_mem _ ht', h⟩

def abortIn? {α : Type} : Except Failure α → Option String
  | .error f => f.abort?
  | .ok _ => none

/-- The results are the same but for failures that do not end the round. -/
structure Agree {α : Type} (x y : Except Failure α) : Prop where
  value : x.toOption = y.toOption
  abort : abortIn? x = abortIn? y

theorem Agree.refl {α : Type} (x : Except Failure α) : Agree x x :=
  ⟨rfl, rfl⟩

theorem Agree.bind {α β : Type} {x y : Except Failure α} (h : Agree x y)
    (f : α → Except Failure β) : Agree (x.bind f) (y.bind f) := by
  obtain ⟨value, abort⟩ := h
  cases x with
  | ok a =>
    rw [toOption_eq_some_iff.1 value.symm]
    exact .refl _
  | error e =>
    cases y with
    | ok b => cases value
    | error e' => exact ⟨rfl, abort⟩

/-- In two rounds the request asks for the same name and is put off alike, and it comes to the same
tokens or to none in both, or ends both. -/
structure Alike (r r' : Round) (renderer : Renderer) (t : Task) : Prop where
  deferredTo : t.deferredTo? r' = t.deferredTo? r
  generated : t.generated r' = t.generated r
  rendered : Agree (t.render r' renderer).result (t.render r renderer).result

theorem Alike.refl (r : Round) (renderer : Renderer) (t : Task) : r.Alike r renderer t :=
  ⟨rfl, rfl, .refl _⟩

theorem entry_result_congr {r' : Round} {t : Task} (alike : r.Alike r' renderer t)
    {g g' : GeneratedNames} (known : t.deferredTo? r = none →
      (g'.contains (t.generated r) = true ↔ g.contains (t.generated r) = true)) :
    (t.entry r' renderer g').result = (t.entry r renderer g).result := by
  have outcome : t.outcome r' = t.outcome r := by
    funext state
    simp [Task.outcome, alike.generated]
  unfold Task.entry
  rw [alike.deferredTo, outcome, alike.generated]
  cases turn : t.deferredTo? r with
  | some w => simp only [Entry.result]
  | none =>
    dsimp only
    by_cases old : g.contains (t.generated r) = true
    · simp only [if_pos old, if_pos ((known turn).2 old), Entry.result]
    · rw [if_neg old, if_neg (mt (known turn).1 old)]
      obtain ⟨rendered, aborted⟩ := alike.rendered
      cases h : (t.render r renderer).result with
      | ok tokens =>
        rw [h] at rendered
        rw [toOption_eq_some_iff.1 rendered]
        simp only [Entry.result]
      | error f =>
        cases h' : (t.render r' renderer).result with
        | ok tokens =>
          rw [h, h'] at rendered
          cases rendered
        | error f' =>
          rw [h, h'] at aborted
          have same : f'.abort? = f.abort? := aborted
          dsimp only
          rw [same]
          cases f.abort? <;> simp only [Entry.result]

/-- Requests that are alike in two rounds have the same outcomes and units in both, if the names
that those not put off ask for were or were not generated before alike. -/
theorem entries_result_congr {r' : Round} {ts : List Task}
    (alike : ∀ t ∈ ts, r.Alike r' renderer t) {g g' : GeneratedNames}
    (known : ∀ t ∈ ts, t.deferredTo? r = none →
      (g'.contains (t.generated r) = true ↔ g.contains (t.generated r) = true)) :
    (r'.entries renderer g' ts).map Entry.result =
      (r.entries renderer g ts).map Entry.result := by
  induction ts generalizing g g' with
  | nil => rfl
  | cons t rest ih =>
    have first := entry_result_congr (alike t List.mem_cons_self) (known t List.mem_cons_self)
    have units : (t.entry r' renderer g').units = (t.entry r renderer g).units :=
      congrArg Prod.snd first
    rw [entries, entries, List.map_cons, List.map_cons, first]
    congr 1
    refine ih (fun t' ht' => alike t' (List.mem_cons_of_mem _ ht')) fun t' ht' turn => ?_
    rw [GeneratedNames.contains_insertUnits, GeneratedNames.contains_insertUnits, units,
      known t' (List.mem_cons_of_mem _ ht') turn]

/-- To a round, `t'` in `r'` is what `t` is in `r`. -/
structure Mirrors (r r' : Round) (renderer : Renderer) (t t' : Task) : Prop where
  bearer : t'.bearer.name = t.bearer.name
  kind : t'.kind = t.kind
  target : t'.target = t.target
  generated : t'.generated r' = t.generated r
  deferredTo : t'.deferredTo? r' = t.deferredTo? r
  rendered : t'.render r' renderer = t.render r renderer

namespace Mirrors

variable {r' : Round} {t t' : Task}

theorem outcome (h : r.Mirrors r' renderer t t') : t'.outcome r' = t.outcome r := by
  funext state
  simp only [Task.outcome, h.bearer, h.kind, h.target, h.generated]

theorem messages (h : r.Mirrors r' renderer t t') :
    (∀ w, t'.deferralMessage r' w = t.deferralMessage r w) ∧
      t'.repeatMessage r' = t.repeatMessage r := by
  cases t with
  | view b q =>
    cases t' with
    | view b' q' =>
      unfold Task.deferralMessage Task.repeatMessage
      dsimp only
      rw [h.bearer, h.target, h.generated]
      exact ⟨fun _ => rfl, rfl⟩
    | metaType b' q' => cases h.kind
  | metaType b q =>
    cases t' with
    | view b' q' => cases h.kind
    | metaType b' q' =>
      unfold Task.deferralMessage Task.repeatMessage
      dsimp only
      rw [h.bearer, h.generated]
      exact ⟨fun _ => rfl, rfl⟩

/-- It adds the same, if its name was or was not generated before alike. -/
theorem entry (h : r.Mirrors r' renderer t t') {g g' : GeneratedNames}
    (known : g'.contains (t.generated r) = true ↔ g.contains (t.generated r) = true) :
    t'.entry r' renderer g' = t.entry r renderer g := by
  have known : g'.contains (t.generated r) = g.contains (t.generated r) :=
    Bool.eq_iff_iff.2 known
  unfold Task.entry
  simp only [h.deferredTo, h.generated, h.outcome, h.messages.1, h.messages.2, h.bearer, h.target,
    h.rendered, known]

/-- Carrying it out is the same, whatever the sink. -/
theorem step {σ : Type} (h : r.Mirrors r' renderer t t') (sink : Sink σ) (p : Progress σ) :
    r'.step renderer sink p t' = r.step renderer sink p t := by
  unfold Round.step emit
  simp only [h.deferredTo, h.generated, h.outcome, h.messages.1, h.messages.2, h.bearer, h.target,
    h.rendered]

end Mirrors

end Round

end RecordViews
