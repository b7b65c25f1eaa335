import Mathlib.Data.List.Nodup
import Mathlib.Data.List.Perm.Basic
import RecordViews.Proofs.MergedOverrides
import RecordViews.Proofs.NameTexts

/-! What a bearer keeps of the order of what is contributed to it. Requests stand as they come. The
functions that come behind them contribute changes and further properties only, so if no two of the
functions change the same member, another order of them makes the same bearer except for the order
of its changes and properties. -/

namespace RecordViews

/-- At most one element has the key, so it does not matter where it stands. -/
theorem filter_key_perm {α β : Type} [DecidableEq β] {key : α → β} {l l' : List α}
    (perm : l.Perm l') (distinct : (l.map key).Nodup) (k : β) :
    l.filter (fun a => key a = k) = l'.filter fun a => key a = k := by
  have alone {l : List α} (distinct : (l.map key).Nodup) :
      (l.filter fun a => key a = k).Pairwise fun _ _ => False := by
    refine ((List.pairwise_map.1 distinct).filter _).imp_of_mem fun {a b} ha hb ne => ne ?_
    have ha := of_decide_eq_true (List.mem_filter.1 ha).2
    have hb := of_decide_eq_true (List.mem_filter.1 hb).2
    exact ha.trans hb.symm
  exact (perm.filter _).eq_of_pairwise (fun _ _ _ _ none => none.elim) (alone distinct)
    (alone ((perm.map key).nodup_iff.1 distinct))

theorem flatMap_filter {α β : Type} {p : α → Bool} {f : α → List β}
    (none : ∀ a, p a = false → f a = []) (l : List α) : (l.filter p).flatMap f = l.flatMap f := by
  induction l with
  | nil => rfl
  | cons a rest ih =>
    cases h : p a
    · rw [List.filter_cons_of_neg (by simp [h]), ih, List.flatMap_cons, none a h, List.nil_append]
    · rw [List.filter_cons_of_pos h, List.flatMap_cons, ih, List.flatMap_cons]

namespace Override

variable {os ps ps' : List Override}

/-- Changes to different members behind others: their order decides only in which order new members
are mentioned. -/
theorem collect_perm (perm : ps.Perm ps') (apart : (ps.map (·.name)).Nodup) :
    (collect (os ++ ps)).Perm (collect (os ++ ps')) := by
  have each (member : String) : about (os ++ ps) member = about (os ++ ps') member := by
    have same := filter_key_perm perm apart member
    have last {α : Type} (part : Override → Option α) :
        lastOf part member (os ++ ps) = lastOf part member (os ++ ps') := by
      simp only [lastOf, List.filter_append, beq_eq_decide, same]
    simp only [about, last]
  rw [collect, collect, funext each]
  refine List.Perm.map _ ?_
  rw [List.perm_ext_iff_of_nodup (eraseDups_nodup _) (eraseDups_nodup _)]
  intro member
  rw [List.mem_eraseDups, List.mem_eraseDups]
  exact ((perm.append_left os).map _).mem_iff

end Override

def Contribution.adjusts (c : Contribution) : Bool :=
  c.override?.isSome || c.addition?.isSome

/-- The same bearer, with its changes and further properties in another order. -/
structure Bearer.Reordered (b b' : Bearer) : Prop where
  name : b'.name.text = b.name.text
  requests : b'.requests = b.requests
  metas : b'.metas = b.metas
  overrides : b.overrides.Perm b'.overrides
  additions : b.additions.Perm b'.additions

/-- The same contributions, where some at the end that change different members, or add properties,
are in another order. -/
def Contribution.Reordered (cs cs' : List Contribution) : Prop :=
  ∃ front back back', cs = front ++ back ∧ cs' = front ++ back' ∧ back.Perm back' ∧
    ((back.filterMap override?).map (·.name)).Nodup ∧ ∀ c ∈ back, c.adjusts = true

namespace Contribution.Reordered

variable {cs cs' : List Contribution}

theorem ne_nil_iff (h : Reordered cs cs') : cs ≠ [] ↔ cs' ≠ [] := by
  obtain ⟨front, back, back', rfl, rfl, perm, -⟩ := h
  rw [← List.length_pos_iff, (perm.append_left front).length_eq, List.length_pos_iff]

theorem bearer (h : Reordered cs cs') {n n' : TypeName} (text : n'.text = n.text) :
    (Bearer.ofContributions n cs).Reordered (Bearer.ofContributions n' cs') := by
  obtain ⟨front, back, back', rfl, rfl, perm, apart, adjusts⟩ := h
  have asks {α : Type} {f : Contribution → Option α} (none : ∀ c, c.adjusts = true → f c = none) :
      (front ++ back').filterMap f = (front ++ back).filterMap f := by
    have back_none : back.filterMap f = [] :=
      List.filterMap_eq_nil_iff.2 fun c hc => none c (adjusts c hc)
    have back_none' : back'.filterMap f = [] :=
      List.filterMap_eq_nil_iff.2 fun c hc => none c (adjusts c (perm.mem_iff.2 hc))
    rw [List.filterMap_append, List.filterMap_append, back_none, back_none']
  rw [Bearer.ofContributions_eq, Bearer.ofContributions_eq]
  refine ⟨text, asks fun c hc => ?_, asks fun c hc => ?_, ?_, (perm.append_left front).filterMap _⟩
  · cases c with
    | view r => cases hc
    | _ => rfl
  · cases c with
    | metaType r => cases hc
    | _ => rfl
  · dsimp only
    rw [List.filterMap_append, List.filterMap_append]
    exact Override.collect_perm (perm.filterMap _) apart

end Contribution.Reordered

theorem contribute_inOrder {bearers : List Bearer} (h : TypeName.InOrder Bearer.name bearers)
    (n : TypeName) (c : Contribution) : TypeName.InOrder Bearer.name (contribute bearers n c) := by
  unfold contribute
  split
  · exact h.modifyIn c.addTo_name
  · exact h.insertIn _

namespace Finding

variable {findings findings' : List Finding}

theorem bearers_inOrder (findings : List Finding) :
    TypeName.InOrder Bearer.name (bearers findings) := by
  refine List.foldlRecOn findings _ .nil fun bearers h finding _ => ?_
  cases finding with
  | contribution n place c => exact contribute_inOrder h n c
  | _ => exact h

theorem contributions_congr {n n' : TypeName} (h : n'.text = n.text) (findings : List Finding) :
    contributions n' findings = contributions n findings := by
  simp only [contributions, h]

/-- Findings with the same contributions to each bearer, if not in the same order. -/
theorem bearers_reordered
    (h : ∀ n, Contribution.Reordered (contributions n findings) (contributions n findings')) :
    List.Forall₂ Bearer.Reordered (bearers findings) (bearers findings') := by
  have held (n : TypeName) := bearers_holdFor n findings
  have held' (n : TypeName) := bearers_holdFor n findings'
  have both {b b' : Bearer} (inside : b ∈ bearers findings) (inside' : b' ∈ bearers findings')
      (text : b'.name.text = b.name.text) : b.Reordered b' := by
    have made := ((held b.name).made (bearers_distinct _) inside).2
    have made' := ((held' b'.name).made (bearers_distinct _) inside').2
    rw [contributions_congr text] at made'
    rw [made, made']
    exact (h b.name).bearer text
  refine (bearers_inOrder findings).forall₂ (bearers_inOrder findings') (fun _ _ same => same.name)
    (fun b inside => ?_) fun b' inside' => ?_
  · have some := ((held b.name).made (bearers_distinct _) inside).1
    obtain ⟨b', inside', text⟩ := (held' b.name).exists_bearer ((h b.name).ne_nil_iff.1 some)
    exact ⟨b', inside', both inside inside' text⟩
  · have some := ((held' b'.name).made (bearers_distinct _) inside').1
    obtain ⟨b, inside, text⟩ := (held b'.name).exists_bearer ((h b'.name).ne_nil_iff.2 some)
    exact ⟨b, inside, both inside inside' text.symm⟩

end Finding

end RecordViews
