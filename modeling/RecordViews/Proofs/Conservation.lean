import Mathlib.Data.List.Forall2
import RecordViews.Proofs.Accounting
import RecordViews.Proofs.Pipeline

/-! No property is lost or invented when the changes and additions of a bearer are made. `Survives`
pairs the properties that are left with those that they come from: changes replace and remove
elements of the list in place, and later ones search it under the changed names, yet what is left
stands in the order of the start. The messages count what is gone. -/

namespace RecordViews

/-- Editing a list leaves its elements, but the one that is taken out, beside what they stood
beside. -/
theorem editFirst_forall₂ {α β : Type} {hit : α → Bool} {f : α → Option α} {R R' : β → α → Prop}
    (other : ∀ b a, R b a → R' b a)
    (edited : ∀ b a a', R b a → hit a = true → f a = some a' → R' b a')
    {bs : List β} {l : List α} (h : List.Forall₂ R bs l) :
    ∃ bs', bs'.Sublist bs ∧ List.Forall₂ R' bs' (editFirst hit f l) := by
  induction h with
  | nil => exact ⟨[], List.Sublist.refl [], .nil⟩
  | @cons b a bs l first rest ih =>
    by_cases ha : hit a = true
    · have kept : List.Forall₂ R' bs l := rest.imp other
      cases hf : f a with
      | none => exact ⟨bs, List.sublist_cons_self b bs, by simpa [editFirst, ha, hf] using kept⟩
      | some a' =>
        refine ⟨b :: bs, List.Sublist.refl _, ?_⟩
        simpa [editFirst, ha, hf] using ⟨edited b a a' first ha hf, kept⟩
    · obtain ⟨bs', sub, kept⟩ := ih
      refine ⟨b :: bs', sub.cons_cons b, ?_⟩
      simpa [editFirst, ha] using ⟨other b a first, kept⟩

namespace Customiser

variable {c : Customiser} {o : Override} {p q : Property} {os : List Override}

theorem changeExtractor_direct (h : c.changeExtractor o p = .ok q) : q.direct = p.direct := by
  rcases changeExtractor_cases h with ⟨-, rfl⟩ | ⟨s, -, rfl⟩ <;> rfl

theorem changeConverter_direct (h : c.changeConverter o p = .ok q) : q.direct = p.direct := by
  rcases changeConverter_cases h with ⟨-, rfl⟩ | ⟨k, -, -, -, rfl⟩ <;> rfl

theorem changeView_direct (h : c.changeView o p = .ok q) : q.direct = p.direct := by
  rcases changeView_cases h with ⟨-, rfl⟩ | ⟨view, ty, -, -, -, rfl⟩ <;> rfl

theorem change_direct (h : c.change o p = .ok q) : q.direct = p.direct := by
  obtain ⟨p₁, p₂, p₃, p₄, start, extractor, converter, view, finish⟩ := change_pipeline h
  calc q.direct = p₄.direct := congrArg Pipeline.direct finish
    _ = p₃.direct := changeView_direct view
    _ = p₂.direct := changeConverter_direct converter
    _ = p₁.direct := changeExtractor_direct extractor
    _ = p.direct := congrArg Pipeline.direct start

/-- Whatever changes a property meets, the reading that was kept from the start stays. -/
theorem Made.direct (made : c.Made p os q) : q.direct = p.direct := by
  induction made with
  | start => rfl
  | more o before named change ih => exact (change_direct change).trans ih

/-- The traced properties come from different properties of `ps`, in the same order, by changes
taken from `done`. -/
def Survives (c : Customiser) (ps : List Property) (done : List Override) (ts : List Traced) :
    Prop :=
  ∃ origins, origins.Sublist ps ∧
    List.Forall₂ (fun p t => t.changes.Sublist done ∧ c.Made p t.changes t.property) origins ts

theorem Survives.start (c : Customiser) (ps : List Property) :
    c.Survives ps [] (ps.map .unchanged) := by
  refine ⟨ps, List.Sublist.refl ps, ?_⟩
  rw [List.forall₂_map_right_iff]
  exact List.forall₂_same.2 fun p _ => ⟨List.Sublist.refl _, .start⟩

theorem Survives.traceOverride {ps : List Property} {done : List Override} {ts : List Traced}
    (h : c.Survives ps done ts) (o : Override) :
    c.Survives ps (done ++ [o]) (c.traceOverride ts o) := by
  obtain ⟨origins, sub, made⟩ := h
  have other (p : Property) (t : Traced)
      (before : t.changes.Sublist done ∧ c.Made p t.changes t.property) :
      t.changes.Sublist (done ++ [o]) ∧ c.Made p t.changes t.property :=
    ⟨before.1.trans (List.sublist_append_left _ _), before.2⟩
  have edited (p : Property) (t t' : Traced)
      (before : t.changes.Sublist done ∧ c.Made p t.changes t.property)
      (hit : (t.property.name == o.name) = true)
      (changed : (c.change o t.property).toOption.map (⟨·, t.changes ++ [o]⟩) = some t') :
      t'.changes.Sublist (done ++ [o]) ∧ c.Made p t'.changes t'.property := by
    obtain ⟨q, made, rfl⟩ := Option.map_eq_some_iff.1 changed
    exact ⟨before.1.append (List.Sublist.refl _),
      before.2.more o (by simpa using hit) (toOption_eq_some_iff.1 made)⟩
  obtain ⟨origins', sub', made'⟩ := editFirst_forall₂ other edited made
  exact ⟨origins', sub'.trans sub, made'⟩

theorem Survives.foldl {ps : List Property} {done : List Override} {ts : List Traced}
    (h : c.Survives ps done ts) (os : List Override) :
    c.Survives ps (done ++ os) (os.foldl c.traceOverride ts) := by
  induction os generalizing done ts with
  | nil => simpa using h
  | cons o rest ih =>
    rw [List.append_cons]
    exact ih (h.traceOverride o)

/-- After the changes and additions of a bearer there are as many properties and messages as there
were properties and additions. The properties left of those at the start are theirs in order, each
with the reading of its member and some of the changes made to it; behind them come the additions
that could be made, in order. The errors noted are the messages, about the config type and the
target. -/
theorem apply_conserves (c : Customiser) (b : Bearer) (ps : List Property) :
    let after := c.apply b ps
    after.properties.length + after.errors.length = ps.length + b.additions.length ∧
    (∃ kept, after.properties =
        kept ++ b.additions.filterMap (fun a => (c.newProperty a).toOption) ∧
      (kept.map (·.direct)).Sublist (ps.map (·.direct)) ∧
      ∃ origins, origins.Sublist ps ∧ List.Forall₂ (fun p q =>
        q.direct = p.direct ∧ ∃ os, os.Sublist b.overrides ∧ c.Made p os q) origins kept) ∧
    after.diagnostics.filter (·.isError) = after.errors.map (.error c.config c.target) := by
  intro after
  have tallies := c.apply_tallies b ps
  refine ⟨tallies.count, ?_, tallies.errors⟩
  obtain ⟨origins, sub, made⟩ := (Survives.start c ps).foldl b.overrides
  let kept := (b.overrides.foldl c.traceOverride (ps.map .unchanged)).map (·.property)
  have beside : List.Forall₂ (fun p q =>
      q.direct = p.direct ∧ ∃ os, os.Sublist b.overrides ∧ c.Made p os q) origins kept := by
    rw [List.forall₂_map_right_iff]
    exact made.imp fun p t h => ⟨h.2.direct, t.changes, h.1, h.2⟩
  have reads : kept.map (·.direct) = origins.map (·.direct) := by
    rw [← List.forall₂_eq_eq_eq, List.forall₂_map_left_iff, List.forall₂_map_right_iff]
    exact beside.flip.imp fun q p h => h.1
  refine ⟨kept, ?_, reads ▸ sub.map _, origins, sub, beside⟩
  show (c.apply b ps).properties = _
  rw [apply_traced, trace, List.map_append, Traced.map_unchanged]

end Customiser

end RecordViews
