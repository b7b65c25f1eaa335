import Mathlib.Data.List.Nodup
import RecordViews.Proofs.NameOrder
import RecordViews.Proofs.RoundStep

/-! Which requests of a round are put off. For each kind of unit and each record one of the bearers
that ask leads: the one whose name has the least text. `winner?` finds it, and a request is put off
exactly if another bearer leads. -/

namespace RecordViews

variable {σ : Type}

namespace Bearer

def Asks (b : Bearer) (kind : UnitKind) (target : TypeName) : Prop :=
  ∃ t ∈ Task.ofBearer b, t.kind = kind ∧ t.target = target

/-- `Asks` as it is computed. -/
def asking (kind : UnitKind) (target : TypeName) (b : Bearer) : Bool :=
  match kind with
  | .view => b.targets target
  | .metaType => b.describes target

theorem asks_iff {b : Bearer} {kind : UnitKind} {target : TypeName} :
    b.Asks kind target ↔ b.asking kind target = true := by
  unfold Asks
  simp only [Task.ofBearer, List.mem_append, List.mem_map]
  cases kind with
  | view =>
    simp only [asking, targets, List.any_eq_true, beq_iff_eq]
    constructor
    · rintro ⟨_, ⟨r, hr, rfl⟩ | ⟨r, hr, rfl⟩, hkind, htarget⟩
      · exact ⟨r, hr, htarget⟩
      · cases hkind
    · rintro ⟨r, hr, htarget⟩
      exact ⟨_, Or.inl ⟨r, hr, rfl⟩, rfl, htarget⟩
  | metaType =>
    simp only [asking, describes, List.any_eq_true, beq_iff_eq]
    constructor
    · rintro ⟨_, ⟨r, hr, rfl⟩ | ⟨r, hr, rfl⟩, hkind, htarget⟩
      · cases hkind
      · exact ⟨r, hr, htarget⟩
    · rintro ⟨r, hr, htarget⟩
      exact ⟨_, Or.inr ⟨r, hr, rfl⟩, rfl, htarget⟩

end Bearer

namespace Task

theorem bearer_of_mem {b : Bearer} {t : Task} (h : t ∈ ofBearer b) : t.bearer = b := by
  simp only [ofBearer, List.mem_append, List.mem_map] at h
  rcases h with ⟨_, _, rfl⟩ | ⟨_, _, rfl⟩ <;> rfl

theorem mem_ofBearers_iff {bearers : List Bearer} {t : Task} :
    t ∈ ofBearers bearers ↔ t.bearer ∈ bearers ∧ t ∈ ofBearer t.bearer := by
  rw [ofBearers, List.mem_flatMap]
  constructor
  · rintro ⟨b, hb, ht⟩
    rw [bearer_of_mem ht]
    exact ⟨hb, ht⟩
  · rintro ⟨hb, ht⟩
    exact ⟨_, hb, ht⟩

theorem winner?_eq (r : Round) (t : Task) :
    t.winner? r =
      TypeName.first? ((r.bearers.filter (Bearer.asking t.kind t.target)).map (·.name)) := by
  cases t <;> rfl

end Task

namespace Round

variable {r : Round}

/-- Of the bearers that ask for a kind of unit of a record, the one whose name has the least
text. -/
structure Leads (r : Round) (kind : UnitKind) (target : TypeName) (b : Bearer) : Prop where
  mem : b ∈ r.bearers
  asks : b.Asks kind target
  least : ∀ c ∈ r.bearers, c.Asks kind target → b.name.text ≤ c.name.text

section Distinct

variable (distinct : (r.bearers.map (·.name.text)).Nodup)
include distinct

theorem bearer_eq_of_text {b c : Bearer} (hb : b ∈ r.bearers) (hc : c ∈ r.bearers)
    (h : b.name.text = c.name.text) : b = c :=
  List.inj_on_of_nodup_map distinct hb hc h

theorem bearer_eq_of_name {b c : Bearer} (hb : b ∈ r.bearers) (hc : c ∈ r.bearers)
    (h : b.name = c.name) : b = c :=
  bearer_eq_of_text distinct hb hc (congrArg TypeName.text h)

theorem Leads.unique {kind : UnitKind} {target : TypeName} {b c : Bearer}
    (hb : r.Leads kind target b) (hc : r.Leads kind target c) : b = c :=
  bearer_eq_of_text distinct hb.mem hc.mem
    (String.le_antisymm (hb.least c hc.mem hc.asks) (hc.least b hb.mem hb.asks))

/-- The bearer that has priority is the one that leads. -/
theorem winner?_eq_some_iff (t : Task) (w : TypeName) :
    t.winner? r = some w ↔ ∃ b, r.Leads t.kind t.target b ∧ w = b.name := by
  rw [Task.winner?_eq, TypeName.first?_eq_some_iff]
  · simp only [List.mem_map, List.mem_filter, ← Bearer.asks_iff]
    constructor
    · rintro ⟨⟨b, ⟨hb, asks⟩, rfl⟩, least⟩
      exact ⟨b, ⟨hb, asks, fun c hc asks => least _ ⟨c, ⟨hc, asks⟩, rfl⟩⟩, rfl⟩
    · rintro ⟨b, ⟨hb, asks, least⟩, rfl⟩
      refine ⟨⟨b, ⟨hb, asks⟩, rfl⟩, ?_⟩
      rintro _ ⟨c, ⟨hc, asks⟩, rfl⟩
      exact least c hc asks
  · intro m hm m' hm' h
    obtain ⟨b, hb, rfl⟩ := List.mem_map.1 hm
    obtain ⟨c, hc, rfl⟩ := List.mem_map.1 hm'
    rw [bearer_eq_of_text distinct (List.mem_filter.1 hb).1 (List.mem_filter.1 hc).1 h]

/-- Somebody leads wherever a request is made. -/
theorem exists_leads {t : Task} (ht : t ∈ Task.ofBearers r.bearers) :
    ∃ b, r.Leads t.kind t.target b := by
  obtain ⟨hb, hmem⟩ := Task.mem_ofBearers_iff.1 ht
  cases hw : t.winner? r with
  | none =>
    rw [Task.winner?_eq, TypeName.first?_eq_none_iff, List.map_eq_nil_iff,
      List.filter_eq_nil_iff] at hw
    exact absurd (Bearer.asks_iff.1 ⟨t, hmem, rfl, rfl⟩) (hw t.bearer hb)
  | some w =>
    obtain ⟨b, leads, _⟩ := (winner?_eq_some_iff distinct t w).1 hw
    exact ⟨b, leads⟩

/-- A request is put off exactly if another bearer than its own leads, and in favour of that
one. -/
theorem deferredTo?_eq_some_iff {t : Task} {c : Bearer} (ht : t ∈ Task.ofBearers r.bearers)
    (leads : r.Leads t.kind t.target c) (w : TypeName) :
    t.deferredTo? r = some w ↔ w = c.name ∧ t.bearer ≠ c := by
  have hw : t.winner? r = some c.name := (winner?_eq_some_iff distinct t _).2 ⟨c, leads, rfl⟩
  have own : t.bearer = c ↔ t.bearer.name = c.name :=
    ⟨congrArg Bearer.name, bearer_eq_of_name distinct (Task.mem_ofBearers_iff.1 ht).1 leads.mem⟩
  rw [Task.deferredTo?, hw, Option.filter_some, ne_eq, own]
  by_cases e : t.bearer.name = c.name
  · simp [e]
  · have other : (c.name != t.bearer.name) = true := by simpa using Ne.symm e
    rw [if_pos other, Option.some.injEq]
    exact ⟨fun h => ⟨h.symm, e⟩, fun h => h.1.symm⟩

variable {renderer : Renderer} {sink : Sink σ} {g : GeneratedNames} {s : σ}

/-- The outcome is that of a bearer that asks; it is deferred exactly if another bearer leads, and
in favour of that one. -/
theorem deferred_iff_of_mem {o : Outcome} (ho : o ∈ (r.run renderer sink g s).outcomes) :
    ∃ b c, b ∈ r.bearers ∧ o.bearer = b.name ∧ b.Asks o.kind o.target ∧
      r.Leads o.kind o.target c ∧ ∀ w, o.state = .deferred w ↔ w = c.name ∧ b ≠ c := by
  obtain ⟨reached, rest, parts, all, -⟩ := r.run_concludes renderer sink g s
  obtain ⟨t, ht, state, rfl, deferred⟩ := exists_task all ho
  have ht : t ∈ Task.ofBearers r.bearers := parts ▸ List.mem_append_left rest ht
  obtain ⟨hb, hmem⟩ := Task.mem_ofBearers_iff.1 ht
  obtain ⟨c, leads⟩ := exists_leads distinct ht
  exact ⟨t.bearer, c, hb, rfl, ⟨t, hmem, rfl, rfl⟩, leads, fun w =>
    (deferred w).trans (deferredTo?_eq_some_iff distinct ht leads w)⟩

omit distinct in
theorem exists_outcome_of_asks (finished : (r.run renderer sink g s).aborted? = none)
    {kind : UnitKind} {target : TypeName} {b : Bearer} (hb : b ∈ r.bearers)
    (asks : b.Asks kind target) :
    ∃ o ∈ (r.run renderer sink g s).outcomes,
      o.kind = kind ∧ o.target = target ∧ o.bearer = b.name := by
  obtain ⟨t, ht, hkind, htarget⟩ := asks
  obtain rfl := Task.bearer_of_mem ht
  obtain ⟨o, ho, _, rfl, _⟩ := exists_outcome (concludes_of_finished finished)
    (Task.mem_ofBearers_iff.2 ⟨hb, ht⟩)
  exact ⟨_, ho, hkind, htarget, rfl⟩

omit distinct in
theorem exists_task_of_asks {kind : UnitKind} {target : TypeName} {b : Bearer}
    (hb : b ∈ r.bearers) (asks : b.Asks kind target) :
    ∃ t ∈ Task.ofBearers r.bearers, t.bearer = b ∧ t.kind = kind ∧ t.target = target := by
  obtain ⟨t, ht, hkind, htarget⟩ := asks
  obtain rfl := Task.bearer_of_mem ht
  exact ⟨t, Task.mem_ofBearers_iff.2 ⟨hb, ht⟩, rfl, hkind, htarget⟩

/-- The requests of one bearer have their turn. -/
theorem existsUnique_turn {kind : UnitKind} {target : TypeName}
    (asked : ∃ b ∈ r.bearers, b.Asks kind target) :
    ∃! b, b ∈ r.bearers ∧ b.Asks kind target ∧ ∀ t ∈ Task.ofBearers r.bearers,
      t.kind = kind → t.target = target → (t.deferredTo? r = none ↔ t.bearer = b) := by
  obtain ⟨b, hb, asks⟩ := asked
  obtain ⟨t, ht, -, rfl, rfl⟩ := exists_task_of_asks hb asks
  obtain ⟨c, leads⟩ := exists_leads distinct ht
  have only : ∀ u ∈ Task.ofBearers r.bearers, u.kind = t.kind → u.target = t.target →
      (u.deferredTo? r = none ↔ u.bearer = c) := by
    intro u hu hkind htarget
    have deferred := deferredTo?_eq_some_iff distinct hu (hkind ▸ htarget ▸ leads)
    rw [Option.eq_none_iff_forall_ne_some]
    constructor
    · intro turn
      by_contra other
      exact turn c.name ((deferred _).2 ⟨rfl, other⟩)
    · exact fun own w put => ((deferred w).1 put).2 own
  refine ⟨c, ⟨leads.mem, leads.asks, only⟩, ?_⟩
  rintro d ⟨-, -, only'⟩
  -- the leading bearer's own request is not put off, so that it is `d`'s as well
  obtain ⟨u, hu, own, hkind, htarget⟩ := exists_task_of_asks leads.mem leads.asks
  exact ((only' u hu hkind htarget).1 ((only u hu hkind htarget).2 own)).symm.trans own

end Distinct

/-- In a round whose bearers have names of different texts, an outcome is deferred exactly if the
bearer that carries it does not lead for its kind and target, and then in favour of the bearer that
leads. So for all that is asked for there is exactly one bearer whose requests are not put off, and
exactly one whose outcomes are not deferred, unless the round was ended before them. -/
theorem deferred_iff_not_leads (r : Round) (renderer : Renderer) (sink : Sink σ)
    (g : GeneratedNames) (s : σ) (distinct : (r.bearers.map (·.name.text)).Nodup) :
    let p := r.run renderer sink g s
    (∀ o ∈ p.outcomes, ∃ b ∈ r.bearers, o.bearer = b.name ∧ b.Asks o.kind o.target ∧
      ((∃ w, o.state = .deferred w) ↔ ¬ r.Leads o.kind o.target b) ∧
      ∀ w, o.state = .deferred w → ∃ c, r.Leads o.kind o.target c ∧ w = c.name) ∧
    ∀ kind target, (∃ b ∈ r.bearers, b.Asks kind target) →
      (∃! b, b ∈ r.bearers ∧ b.Asks kind target ∧ ∀ t ∈ Task.ofBearers r.bearers,
        t.kind = kind → t.target = target → (t.deferredTo? r = none ↔ t.bearer = b)) ∧
      (p.aborted? = none → ∃! b, b ∈ r.bearers ∧
        (∃ o ∈ p.outcomes, o.kind = kind ∧ o.target = target ∧ o.bearer = b.name) ∧
        ∀ o ∈ p.outcomes, o.kind = kind → o.target = target →
          ((∀ w, o.state ≠ .deferred w) ↔ o.bearer = b.name)) := by
  intro p
  constructor
  · intro o ho
    obtain ⟨b, c, hb, hbearer, asks, leads, deferred⟩ := deferred_iff_of_mem distinct ho
    refine ⟨b, hb, hbearer, asks, ?_, fun w hw => ⟨c, leads, ((deferred w).1 hw).1⟩⟩
    constructor
    · rintro ⟨w, hw⟩ leads'
      exact ((deferred w).1 hw).2 (leads'.unique distinct leads)
    · intro not_leads
      exact ⟨c.name, (deferred _).2 ⟨rfl, fun e => not_leads (e ▸ leads)⟩⟩
  · intro kind target asked
    refine ⟨existsUnique_turn distinct asked, fun finished => ?_⟩
    obtain ⟨b, hb, asks⟩ := asked
    obtain ⟨o, ho, rfl, rfl, _⟩ : ∃ o ∈ p.outcomes, o.kind = kind ∧ o.target = target ∧ _ :=
      exists_outcome_of_asks finished hb asks
    obtain ⟨-, c, -, -, -, leads, -⟩ := deferred_iff_of_mem distinct ho
    have own : ∃ o' ∈ p.outcomes, o'.kind = o.kind ∧ o'.target = o.target ∧ o'.bearer = c.name :=
      exists_outcome_of_asks finished leads.mem leads.asks
    have only : ∀ o' ∈ p.outcomes, o'.kind = o.kind → o'.target = o.target →
        ((∀ w, o'.state ≠ .deferred w) ↔ o'.bearer = c.name) := by
      intro o' ho' hkind htarget
      obtain ⟨b', c', hb', hbearer, -, leads', deferred⟩ := deferred_iff_of_mem distinct ho'
      rw [hkind, htarget] at leads'
      obtain rfl := leads'.unique distinct leads
      rw [hbearer]
      constructor
      · intro turn
        by_contra ne
        exact turn c'.name ((deferred _).2 ⟨rfl, fun e => ne (congrArg Bearer.name e)⟩)
      · intro e w hw
        exact ((deferred w).1 hw).2 (bearer_eq_of_name distinct hb' leads.mem e)
    refine ⟨c, ⟨leads.mem, own, only⟩, ?_⟩
    rintro d ⟨hd, -, only'⟩
    obtain ⟨o', ho', hkind, htarget, hbearer⟩ := own
    -- the leading bearer's own outcome is not deferred, so that it is `d`'s as well
    have turn := (only o' ho' hkind htarget).2 hbearer
    have := (only' o' ho' hkind htarget).1 turn
    exact bearer_eq_of_name distinct hd leads.mem (this.symm.trans hbearer)

end Round

/-- Two bearers ask for a view of one record. The first also asks for a meta type of it, the second
one has priority for the view. -/
def contest : Round where
  library := { leading := true, segments := [{ name := "view_synth" }] }
  model := ⟨[{ name := ⟨["crate"], "Person"⟩ }]⟩
  bearers := [
    { name := ⟨["crate"], "B"⟩,
      requests := [{ target := .named ⟨["crate"], "Person"⟩ }],
      metas := [{ target := .named ⟨["crate"], "Person"⟩ }] },
    { name := ⟨["crate"], "A"⟩,
      requests := [{ target := .named ⟨["crate"], "Person"⟩ }] }]

theorem contest_one_leads :
    (contest.bearers.map (·.name.text)).Nodup ∧
    let os := (contest.run (Renderer.ofDerives []) Sink.memory {} []).outcomes
    ∃! b, b ∈ contest.bearers ∧
      (∃ o ∈ os, o.kind = .view ∧ o.target = ⟨["crate"], "Person"⟩ ∧ o.bearer = b.name) ∧
      ∀ o ∈ os, o.kind = .view → o.target = ⟨["crate"], "Person"⟩ →
        ((∀ w, o.state ≠ .deferred w) ↔ o.bearer = b.name) := by
  have distinct : (contest.bearers.map (·.name.text)).Nodup := by decide
  refine ⟨distinct, ?_⟩
  have all := (Round.deferred_iff_not_leads contest (Renderer.ofDerives []) Sink.memory {} []
    distinct).2 .view ⟨["crate"], "Person"⟩ ⟨_, List.mem_cons_self, Bearer.asks_iff.2 rfl⟩
  exact all.2 (by decide +kernel)

end RecordViews
