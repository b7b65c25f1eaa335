import Mathlib.Data.List.Perm.Basic
import RecordViews.Proofs.Entries
import RecordViews.Proofs.MemberMerge

/-! The order in which bearers are found does not matter. Who leads, whose changes apply and what a
request comes to are the same in every order, and as long as no two bearers generate under one
text, what the requests of a bearer add does not depend on the bearers before it. -/

namespace RecordViews

def Round.withBearers (r : Round) (bearers : List Bearer) : Round :=
  { r with bearers }

theorem contributing_perm {bearers bearers' : List Bearer} (perm : bearers.Perm bearers')
    (target config : TypeName) :
    (contributing bearers target config).Perm (contributing bearers' target config) :=
  List.Perm.flatMap_right _ perm

namespace Round

variable {r : Round} {bearers : List Bearer}

theorem configBearer?_eq_some_iff (distinct : (r.bearers.map (·.name.text)).Nodup)
    {config : TypeName} {b : Bearer} :
    r.configBearer? config = some b ↔ b ∈ r.bearers ∧ b.name = config := by
  unfold configBearer?
  constructor
  · intro h
    exact ⟨List.mem_of_find?_eq_some h, by simpa using List.find?_some h⟩
  · rintro ⟨hb, rfl⟩
    cases h : r.bearers.find? (·.name == b.name) with
    | none => exact absurd (List.find?_eq_none.1 h b hb) (by simp)
    | some c =>
      have hname : c.name = b.name := by simpa using List.find?_some h
      rw [bearer_eq_of_name distinct (List.mem_of_find?_eq_some h) hb hname]

section Reordered

variable (perm : r.bearers.Perm bearers) (distinct : (r.bearers.map (·.name.text)).Nodup)
include perm distinct

theorem distinct_withBearers : ((r.withBearers bearers).bearers.map (·.name.text)).Nodup :=
  (perm.map _).nodup_iff.1 distinct

theorem configBearer?_perm (config : TypeName) :
    (r.withBearers bearers).configBearer? config = r.configBearer? config := by
  ext b
  rw [configBearer?_eq_some_iff (distinct_withBearers perm distinct),
    configBearer?_eq_some_iff distinct]
  exact and_congr_left' perm.mem_iff.symm

theorem deferredTo?_perm (t : Task) :
    t.deferredTo? (r.withBearers bearers) = t.deferredTo? r := by
  have leads_iff (b : Bearer) :
      (r.withBearers bearers).Leads t.kind t.target b ↔ r.Leads t.kind t.target b := by
    constructor
    · intro h
      exact ⟨perm.mem_iff.2 h.mem, h.asks, fun c hc => h.least c (perm.mem_iff.1 hc)⟩
    · intro h
      exact ⟨perm.mem_iff.1 h.mem, h.asks, fun c hc => h.least c (perm.mem_iff.2 hc)⟩
  have winner : t.winner? (r.withBearers bearers) = t.winner? r := by
    ext w
    rw [winner?_eq_some_iff (distinct_withBearers perm distinct), winner?_eq_some_iff distinct]
    simp only [leads_iff]
  rw [Task.deferredTo?, Task.deferredTo?, winner]

/-- A request for a view comes to the same view, or fails, whatever the order. If a pattern cannot
be read, which one is reported does depend on it. -/
theorem resolveView_perm (b : Bearer) (request : ViewRequest) :
    Agree ((r.withBearers bearers).resolveView b request).result
      (r.resolveView b request).result := by
  have viewable_eq : (r.withBearers bearers).viewable b request = r.viewable b request := by
    simp only [viewable, configBearer?_perm perm distinct]
    rfl
  have customised_eq (source : SourceType) (ps : List Property) :
      (r.withBearers bearers).customised b request source ps =
        r.customised b request source ps := by
    simp only [customised, configBearer?_perm perm distinct]
    rfl
  have starting_eq (source : SourceType) :
      ((r.withBearers bearers).startingProperties b request source).toOption =
        (r.startingProperties b request source).toOption :=
    baseProperties_congr (fun _ => (contributing_perm perm _ _).symm.mem_iff) source request
  unfold resolveView
  rw [viewable_eq]
  cases r.viewable b request with
  | error f => exact .refl _
  | ok source =>
    have starting := starting_eq source
    dsimp only
    cases h : r.startingProperties b request source <;>
      cases h' : (r.withBearers bearers).startingProperties b request source <;>
      rw [h, h'] at starting
    · exact ⟨rfl, (baseProperties_harmless h').trans (baseProperties_harmless h).symm⟩
    · cases starting
    · cases starting
    · obtain rfl := Option.some.inj starting
      dsimp only
      rw [customised_eq]
      exact .refl _

theorem alike_withBearers (renderer : Renderer) (t : Task) :
    r.Alike (r.withBearers bearers) renderer t := by
  refine ⟨deferredTo?_perm perm distinct t, by cases t <;> rfl, ?_⟩
  cases t with
  | view b request => exact (resolveView_perm perm distinct b request).bind renderer.view
  | metaType b request => exact .refl _

end Reordered

/-- No two requests of different bearers that are not put off ask for names of one text. -/
def Apart (r : Round) : Prop :=
  ∀ t ∈ Task.ofBearers r.bearers, ∀ u ∈ Task.ofBearers r.bearers,
    t.deferredTo? r = none → u.deferredTo? r = none → t.bearer ≠ u.bearer →
      (t.generated r).text ≠ (u.generated r).text

/-- Each bearer adds what it would add if it came first. -/
theorem entries_by_bearer (renderer : Renderer) (apart : r.Apart) (g : GeneratedNames)
    (bs : List Bearer) (nodup : bs.Nodup) (sub : ∀ b ∈ bs, b ∈ r.bearers) (g' : GeneratedNames)
    (known : ∀ t ∈ Task.ofBearers bs, t.deferredTo? r = none →
      (g'.contains (t.generated r) = true ↔ g.contains (t.generated r) = true)) :
    (r.entries renderer g' (Task.ofBearers bs)).map Entry.result =
      bs.flatMap fun b => (r.entries renderer g (Task.ofBearer b)).map Entry.result := by
  induction bs generalizing g' with
  | nil => rfl
  | cons b rest ih =>
    rw [List.nodup_cons] at nodup
    have split : Task.ofBearers (b :: rest) = Task.ofBearer b ++ Task.ofBearers rest := rfl
    rw [split] at known
    rw [split, entries_append, List.map_append, List.flatMap_cons]
    congr 1
    · exact entries_result_congr (fun t _ => .refl r renderer t)
        fun t ht => known t (List.mem_append_left _ ht)
    · refine ih nodup.2 (fun c hc => sub c (List.mem_cons_of_mem b hc)) _ fun t ht turn => ?_
      rw [GeneratedNames.contains_insertUnits, ← known t (List.mem_append_right _ ht) turn]
      refine or_iff_left ?_
      -- a unit of `b` has a name that a request of `b` asks for
      rintro ⟨u, hu, e⟩
      obtain ⟨t', ht', hname, turn'⟩ := entries_units hu
      obtain ⟨hc, hmem⟩ := Task.mem_ofBearers_iff.1 ht
      have hb := sub b List.mem_cons_self
      rw [hname] at e
      refine apart t' ?_ t ?_ turn' turn ?_ e
      · exact List.mem_flatMap.2 ⟨b, hb, ht'⟩
      · exact Task.mem_ofBearers_iff.2 ⟨sub _ (List.mem_cons_of_mem b hc), hmem⟩
      · rw [Task.bearer_of_mem ht']
        exact fun e => nodup.1 (e ▸ hc)

theorem run_results (renderer : Renderer) (distinct : (r.bearers.map (·.name.text)).Nodup)
    (apart : r.Apart) (g : GeneratedNames) (units : List Emitted) :
    let results := r.bearers.flatMap fun b =>
      (r.entries renderer g (Task.ofBearer b)).map Entry.result
    let p := r.run renderer Sink.memory g units
    p.aborted? = results.findSome? (·.1.state.abort?) ∧
      (p.aborted? = none →
        p.outcomes = results.map Prod.fst ∧ p.sink = units ++ results.flatMap Prod.snd) := by
  intro results p
  have nodup : r.bearers.Nodup := List.Nodup.of_map _ distinct
  have h := entries_by_bearer renderer apart g r.bearers nodup (fun _ => id) g fun _ _ _ => Iff.rfl
  have aborted : p.aborted? = _ := r.run_memory_aborted? renderer g units
  constructor
  · rw [aborted]
    simp only [results, ← h, List.findSome?_map]
    rfl
  · intro finished
    have whole := reached_eq_self (aborted.symm.trans finished)
    simp only [p, results, ← h, run_memory, whole, addEntries, List.map_map, List.flatMap_map,
      List.nil_append]
    exact ⟨rfl, rfl⟩

end Round

/-- Let the bearers have names of different texts, and no two requests of different bearers that
are not put off ask for names of one text. Then the bearers in any other order come to the same
outcomes and the same units, up to their order, unless the round is ended by a request; in this case
it is in every order. -/
theorem Round.run_perm (r : Round) (renderer : Renderer) (g : GeneratedNames)
    (units : List Emitted) (bearers : List Bearer) (perm : r.bearers.Perm bearers)
    (distinct : (r.bearers.map (·.name.text)).Nodup) (apart : r.Apart) :
    let p := r.run renderer Sink.memory g units
    let q := (r.withBearers bearers).run renderer Sink.memory g units
    (p.aborted? = none ↔ q.aborted? = none) ∧
      (p.aborted? = none → p.outcomes.Perm q.outcomes ∧ p.sink.Perm q.sink) := by
  intro p q
  have alike := alike_withBearers perm distinct renderer
  have apart' : (r.withBearers bearers).Apart := by
    intro t ht u hu
    rw [(alike t).deferredTo, (alike u).deferredTo, (alike t).generated, (alike u).generated]
    exact apart t ((perm.flatMap_right _).mem_iff.2 ht) u ((perm.flatMap_right _).mem_iff.2 hu)
  obtain ⟨aborted, finished⟩ := run_results renderer distinct apart g units
  obtain ⟨aborted', finished'⟩ :=
    run_results renderer (distinct_withBearers perm distinct) apart' g units
  have same (b : Bearer) :
      ((r.withBearers bearers).entries renderer g (Task.ofBearer b)).map Entry.result =
        (r.entries renderer g (Task.ofBearer b)).map Entry.result :=
    entries_result_congr (fun t _ => alike t) fun _ _ _ => Iff.rfl
  simp only [same] at aborted' finished'
  have results := perm.flatMap_right fun b =>
    (r.entries renderer g (Task.ofBearer b)).map Entry.result
  have ended : p.aborted? = none ↔ q.aborted? = none := by
    rw [show p.aborted? = _ from aborted, show q.aborted? = _ from aborted',
      List.findSome?_eq_none_iff, List.findSome?_eq_none_iff]
    exact forall_congr' fun e => imp_congr_left results.mem_iff
  refine ⟨ended, fun whole => ?_⟩
  obtain ⟨outcomes, sink⟩ := finished whole
  obtain ⟨outcomes', sink'⟩ := finished' (ended.1 whole)
  constructor
  · rw [outcomes, outcomes']
    exact results.map _
  · rw [sink, sink']
    exact (results.flatMap_right _).append_left _

theorem contest_reversed :
    contest.bearers.Perm contest.bearers.reverse ∧
    (contest.bearers.map (·.name.text)).Nodup ∧ contest.Apart ∧
    let p := contest.run (Renderer.ofDerives []) Sink.memory {} []
    let q := (contest.withBearers contest.bearers.reverse).run (Renderer.ofDerives [])
      Sink.memory {} []
    p.aborted? = none ∧ p.outcomes.Perm q.outcomes ∧ p.sink.Perm q.sink := by
  have perm : contest.bearers.Perm contest.bearers.reverse := (List.reverse_perm _).symm
  have distinct : (contest.bearers.map (·.name.text)).Nodup := by decide
  have apart : contest.Apart := by
    unfold Round.Apart
    decide
  have finished : (contest.run (Renderer.ofDerives []) Sink.memory {} []).aborted? = none := by
    decide +kernel
  obtain ⟨-, same⟩ := contest.run_perm (Renderer.ofDerives []) {} [] _ perm distinct apart
  exact ⟨perm, distinct, apart, finished, same finished⟩

end RecordViews
