import RecordViews.Text.CodePoints
import Mathlib.Tactic.Tauto

/-! The sets of code points as sets. A complement and what is made with it need ranges that ascend;
a union sorts what it is given, so that every operation has such ranges again, and only of a table it
has to be looked up. -/

namespace RecordViews.Text

namespace CodePoints

variable {r : Nat × Nat} {rs : List (Nat × Nat)} {s t : CodePoints} {start n : Nat}

def Within (rs : List (Nat × Nat)) (n : Nat) : Prop :=
  ∃ r ∈ rs, r.1 ≤ n ∧ n ≤ r.2

instance (rs : List (Nat × Nat)) (n : Nat) : Decidable (Within rs n) :=
  inferInstanceAs (Decidable (∃ r ∈ rs, r.1 ≤ n ∧ n ≤ r.2))

theorem contains_iff : s.contains n = true ↔ Within s.ranges n := by
  simp [contains, Within]

theorem within_cons : Within (r :: rs) n ↔ (r.1 ≤ n ∧ n ≤ r.2) ∨ Within rs n := by
  simp [Within]

theorem within_append {more : List (Nat × Nat)} :
    Within (rs ++ more) n ↔ Within rs n ∨ Within more n := by
  simp [Within, or_and_right, exists_or]

theorem within_of_covered {more : List (Nat × Nat)}
    (covered : rs.all (fun r => more.any fun q => q.1 ≤ r.1 && r.2 ≤ q.2) = true)
    (h : Within rs n) : Within more n := by
  obtain ⟨r, inside, low, high⟩ := h
  obtain ⟨q, there, covers⟩ := List.any_eq_true.1 (List.all_eq_true.1 covered r inside)
  simp only [Bool.and_eq_true, decide_eq_true_eq] at covers
  exact ⟨q, there, by omega, by omega⟩

/-- Joining ranges adds nothing. -/
theorem within_joinFrom (h : Within (joinFrom r rs) n) : Within (r :: rs) n := by
  induction rs generalizing r with
  | nil => exact h
  | cons q rest ih =>
    rw [joinFrom] at h
    split at h
    · rename_i touch
      have inside := ih h
      rw [within_cons] at inside
      rw [within_cons, within_cons]
      rcases inside with ⟨low, high⟩ | inside
      · -- above the first range is the second
        dsimp only at low high
        omega
      · exact Or.inr (Or.inr inside)
    · rw [within_cons] at h ⊢
      exact h.imp_right ih

theorem within_join (h : Within (join rs) n) : Within rs n := by
  cases rs with
  | nil => exact h
  | cons r rest => exact within_joinFrom h

/-- From `start` on, the ranges follow one another. -/
def Ascending : Nat → List (Nat × Nat) → Prop
  | _, [] => True
  | start, r :: rest => start ≤ r.1 ∧ r.1 ≤ r.2 ∧ Ascending (r.2 + 1) rest

instance Ascending.decidable : (start : Nat) → (rs : List (Nat × Nat)) →
    Decidable (Ascending start rs)
  | _, [] => .isTrue trivial
  | start, r :: rest =>
    have := Ascending.decidable (r.2 + 1) rest
    inferInstanceAs (Decidable (start ≤ r.1 ∧ r.1 ≤ r.2 ∧ Ascending (r.2 + 1) rest))

def Ordered (s : CodePoints) : Prop :=
  Ascending 0 s.ranges

instance (s : CodePoints) : Decidable s.Ordered :=
  Ascending.decidable 0 s.ranges

theorem Ascending.later {first : Nat} (h : Ascending start rs) (le : first ≤ start) :
    Ascending first rs := by
  cases rs with
  | nil => trivial
  | cons r rest => exact ⟨Nat.le_trans le h.1, h.2⟩

theorem Ascending.le (h : Ascending start rs) (inside : Within rs n) : start ≤ n := by
  induction rs generalizing start with
  | nil => simp [Within] at inside
  | cons r rest ih =>
    obtain ⟨low, own, more⟩ := h
    rcases within_cons.1 inside with held | later
    · omega
    · have := ih more later
      omega

/-- Joining ranges that ascend by their lower ends loses nothing. -/
theorem within_joinFrom_of (sorted : (r :: rs).Pairwise (·.1 ≤ ·.1)) (h : Within (r :: rs) n) :
    Within (joinFrom r rs) n := by
  induction rs generalizing r with
  | nil => exact h
  | cons q rest ih =>
    obtain ⟨first, sorted⟩ := List.pairwise_cons.1 sorted
    obtain ⟨low, above⟩ := List.forall_mem_cons.1 first
    rw [within_cons, within_cons] at h
    rw [joinFrom]
    split
    · refine ih (r := (r.1, max r.2 q.2)) (List.pairwise_cons.2 ⟨above, sorted.of_cons⟩) (within_cons.2 ?_)
      rcases h with held | held | later
      · left
        dsimp only
        omega
      · left
        dsimp only
        omega
      · exact Or.inr later
    · rw [within_cons]
      exact h.imp_right fun later => ih sorted (within_cons.2 later)

theorem ascending_joinFrom (sorted : (r :: rs).Pairwise (·.1 ≤ ·.1))
    (proper : ∀ q ∈ r :: rs, q.1 ≤ q.2) : Ascending r.1 (joinFrom r rs) := by
  induction rs generalizing r with
  | nil => exact ⟨Nat.le_refl _, proper r List.mem_cons_self, trivial⟩
  | cons q rest ih =>
    obtain ⟨first, sorted⟩ := List.pairwise_cons.1 sorted
    obtain ⟨own, proper⟩ := List.forall_mem_cons.1 proper
    rw [joinFrom]
    split
    · refine ih (r := (r.1, max r.2 q.2)) (List.pairwise_cons.2 ⟨(List.forall_mem_cons.1 first).2, sorted.of_cons⟩)
        (List.forall_mem_cons.2 ⟨?_, (List.forall_mem_cons.1 proper).2⟩)
      exact Nat.le_trans own (Nat.le_max_left _ _)
    · rename_i apart
      exact ⟨Nat.le_refl _, own, (ih sorted proper).later (by omega)⟩

/-- The gaps between ascending ranges are what the ranges leave out. -/
theorem within_gaps_iff (h : Ascending start rs) (valid : n ≤ last) :
    Within (gaps start rs) n ↔ start ≤ n ∧ ¬ Within rs n := by
  induction rs generalizing start with
  | nil =>
    rw [gaps]
    split
    · simp [Within, valid]
    · simp only [Within, List.not_mem_nil, false_and, exists_false, not_false_eq_true, and_true,
        false_iff]
      omega
  | cons r rest ih =>
    obtain ⟨low, own, more⟩ := h
    have later : Within rest n → r.2 + 1 ≤ n := more.le
    rw [gaps]
    split
    · rw [within_cons, within_cons, ih more]
      grind
    · rw [within_cons, ih more]
      grind

theorem ascending_gaps (h : Ascending start rs) : Ascending start (gaps start rs) := by
  induction rs generalizing start with
  | nil =>
    rw [gaps]
    split
    · rename_i room
      exact ⟨Nat.le_refl _, room, trivial⟩
    · trivial
  | cons r rest ih =>
    obtain ⟨low, own, more⟩ := h
    rw [gaps]
    split
    · exact ⟨Nat.le_refl _, by dsimp only; omega, (ih more).later (by dsimp only; omega)⟩
    · exact (ih more).later (by omega)

theorem sorted_mergeSort (rs : List (Nat × Nat)) :
    (rs.mergeSort fun a b => a.1 ≤ b.1).Pairwise (·.1 ≤ ·.1) := by
  have trans (a b c : Nat × Nat) : decide (a.1 ≤ b.1) = true → decide (b.1 ≤ c.1) = true →
      decide (a.1 ≤ c.1) = true := by
    simpa using Nat.le_trans
  have total (a b : Nat × Nat) : (decide (a.1 ≤ b.1) || decide (b.1 ≤ a.1)) = true := by
    simpa using Nat.le_total a.1 b.1
  simpa using List.pairwise_mergeSort trans total rs

theorem contains_ofRanges_iff : (ofRanges rs).contains n = true ↔ Within rs n := by
  rw [contains_iff, ofRanges]
  have sorted := sorted_mergeSort (rs.filter fun r => r.1 ≤ r.2)
  have same : Within ((rs.filter fun r => r.1 ≤ r.2).mergeSort fun a b => a.1 ≤ b.1) n ↔
      Within rs n := by
    simp only [Within, List.mem_mergeSort, List.mem_filter, decide_eq_true_eq]
    grind
  rw [← same]
  refine ⟨within_join, fun inside => ?_⟩
  generalize (rs.filter fun r => r.1 ≤ r.2).mergeSort _ = l at sorted inside ⊢
  cases l with
  | nil => exact inside
  | cons r rest => exact within_joinFrom_of sorted inside

theorem ordered_ofRanges (rs : List (Nat × Nat)) : (ofRanges rs).Ordered := by
  have sorted := sorted_mergeSort (rs.filter fun r => r.1 ≤ r.2)
  have proper : ∀ q ∈ (rs.filter fun r => r.1 ≤ r.2).mergeSort fun a b => a.1 ≤ b.1, q.1 ≤ q.2 := by
    simp
  unfold Ordered ofRanges
  generalize (rs.filter fun r => r.1 ≤ r.2).mergeSort _ = l at sorted proper ⊢
  cases l with
  | nil => trivial
  | cons r rest => exact (ascending_joinFrom sorted proper).later (Nat.zero_le _)

theorem contains_union_iff :
    (s.union t).contains n = true ↔ s.contains n = true ∨ t.contains n = true := by
  rw [union, contains_ofRanges_iff, within_append, contains_iff, contains_iff]

theorem ordered_union : (s.union t).Ordered :=
  ordered_ofRanges _

theorem contains_complement_iff (h : s.Ordered) (valid : n ≤ last) :
    s.complement.contains n = true ↔ ¬ s.contains n = true := by
  rw [contains_iff, contains_iff, complement]
  simpa using within_gaps_iff h valid

theorem Ordered.complement (h : s.Ordered) : s.complement.Ordered :=
  ascending_gaps h

theorem contains_inter_iff (hs : s.Ordered) (ht : t.Ordered) (valid : n ≤ last) :
    (s.inter t).contains n = true ↔ s.contains n = true ∧ t.contains n = true := by
  rw [inter, contains_complement_iff ordered_union valid, contains_union_iff,
    contains_complement_iff hs valid, contains_complement_iff ht valid]
  tauto

theorem ordered_inter : (s.inter t).Ordered :=
  ordered_union.complement

theorem contains_diff_iff (hs : s.Ordered) (ht : t.Ordered) (valid : n ≤ last) :
    (s.diff t).contains n = true ↔ s.contains n = true ∧ ¬ t.contains n = true := by
  rw [diff, contains_inter_iff hs ht.complement valid, contains_complement_iff ht valid]

theorem ordered_diff : (s.diff t).Ordered :=
  ordered_inter

end CodePoints

end RecordViews.Text
