import Mathlib.Data.List.Forall2
import RecordViews.Name.Ordered
import RecordViews.Request.Priority

/-! Names are ordered by their texts. What depends on the order of names, the place where a list
takes a new one and the first name of a list, comes down to the order of strings. -/

namespace RecordViews.TypeName

variable {α : Type}

theorem before_iff {a b : TypeName} : a.before b = true ↔ a.text < b.text := by
  simp [before]

theorem text_eq_of_not_before {a b : TypeName} (h : ¬ a.before b = true)
    (h' : ¬ b.before a = true) : a.text = b.text := by
  rw [before_iff, String.not_lt] at h h'
  exact String.le_antisymm h' h

/-- A name of a new text is put somewhere, and replaces nothing. -/
theorem insertIn_perm (key : α → TypeName) (a : α) (l : List α)
    (new : ∀ b ∈ l, (key b).text ≠ (key a).text) : (insertIn key a l).Perm (a :: l) := by
  induction l with
  | nil => exact List.Perm.refl _
  | cons b rest ih =>
    unfold insertIn
    split
    · exact List.Perm.refl _
    · split
      · have := ih fun c hc => new c (List.mem_cons_of_mem b hc)
        exact (this.cons b).trans (List.Perm.swap a b rest)
      · rename_i h h'
        exact absurd (text_eq_of_not_before h' h) (new b List.mem_cons_self)

/-- The names ascend, each text once. -/
def InOrder (key : α → TypeName) (l : List α) : Prop :=
  l.Pairwise fun a b => (key a).text < (key b).text

theorem mem_of_mem_insertIn {key : α → TypeName} {a b : α} {l : List α}
    (h : b ∈ insertIn key a l) : b = a ∨ b ∈ l := by
  induction l with
  | nil => exact Or.inl (List.mem_singleton.1 h)
  | cons c rest ih =>
    unfold insertIn at h
    split at h
    · exact List.mem_cons.1 h
    · split at h
      · rcases List.mem_cons.1 h with rfl | h
        · exact Or.inr List.mem_cons_self
        · exact (ih h).imp_right (List.mem_cons_of_mem c)
      · exact (List.mem_cons.1 h).imp_right (List.mem_cons_of_mem c)

theorem InOrder.insertIn {key : α → TypeName} {l : List α} (h : InOrder key l) (a : α) :
    InOrder key (insertIn key a l) := by
  induction l with
  | nil => exact List.pairwise_singleton _ _
  | cons b rest ih =>
    obtain ⟨first, later⟩ := List.pairwise_cons.1 h
    unfold TypeName.insertIn
    split
    · rename_i before
      rw [before_iff] at before
      refine List.pairwise_cons.2 ⟨fun c hc => ?_, h⟩
      rcases List.mem_cons.1 hc with rfl | hc
      · exact before
      · exact String.lt_trans before (first c hc)
    · rename_i behind
      split
      · rename_i before
        rw [before_iff] at before
        refine List.pairwise_cons.2 ⟨fun c hc => ?_, ih later⟩
        rcases mem_of_mem_insertIn hc with rfl | hc
        · exact before
        · exact first c hc
      · rename_i before
        have same := text_eq_of_not_before before behind
        exact List.pairwise_cons.2 ⟨fun c hc => same ▸ first c hc, later⟩

theorem InOrder.modifyIn {key : α → TypeName} {l : List α} {n : TypeName} {f : α → α}
    (h : InOrder key l) (named : ∀ a, key (f a) = key a) : InOrder key (modifyIn key n f l) := by
  have kept (a : α) : key (if ((key a).text == n.text) = true then f a else a) = key a := by
    split
    · exact named a
    · rfl
  refine List.pairwise_map.2 (List.Pairwise.imp (fun {a b} before => ?_) h)
  rw [kept, kept]
  exact before

/-- Two lists in order whose elements are related to elements of the other of the same name are
related element by element. -/
theorem InOrder.forall₂ {β : Type} {key : α → TypeName} {key' : β → TypeName} {R : α → β → Prop}
    {l : List α} {l' : List β} (h : InOrder key l) (h' : InOrder key' l')
    (named : ∀ a b, R a b → (key' b).text = (key a).text) (left : ∀ a ∈ l, ∃ b ∈ l', R a b)
    (right : ∀ b ∈ l', ∃ a ∈ l, R a b) : List.Forall₂ R l l' := by
  induction l generalizing l' with
  | nil =>
    cases l' with
    | nil => exact .nil
    | cons b rest =>
      obtain ⟨a, none, -⟩ := right b List.mem_cons_self
      cases none
  | cons a rest ih =>
    cases l' with
    | nil =>
      obtain ⟨b, none, -⟩ := left a List.mem_cons_self
      cases none
    | cons b rest' =>
      obtain ⟨first, later⟩ := List.pairwise_cons.1 h
      obtain ⟨first', later'⟩ := List.pairwise_cons.1 h'
      -- nothing in front of either head is left to be related to the other
      have heads : R a b := by
        obtain ⟨b', inside, beside⟩ := left a List.mem_cons_self
        rcases List.mem_cons.1 inside with rfl | behind
        · exact beside
        · obtain ⟨a', inside', beside'⟩ := right b List.mem_cons_self
          have lt := first' b' behind
          rw [named a b' beside, named a' b beside'] at lt
          rcases List.mem_cons.1 inside' with rfl | behind'
          · exact absurd lt (String.lt_irrefl _)
          · exact absurd (first a' behind') (String.lt_asymm lt)
      refine .cons heads (ih later later' (fun c hc => ?_) fun d hd => ?_)
      · obtain ⟨d, inside, beside⟩ := left c (List.mem_cons_of_mem a hc)
        rcases List.mem_cons.1 inside with rfl | behind
        · have lt := first c hc
          rw [← named a d heads, ← named c d beside] at lt
          exact absurd lt (String.lt_irrefl _)
        · exact ⟨d, behind, beside⟩
      · obtain ⟨c, inside, beside⟩ := right d (List.mem_cons_of_mem b hd)
        rcases List.mem_cons.1 inside with rfl | behind
        · have lt := first' d hd
          rw [named c b heads, named c d beside] at lt
          exact absurd lt (String.lt_irrefl _)
        · exact ⟨c, behind, beside⟩

theorem earlier_mem (a b : TypeName) : earlier a b = a ∨ earlier a b = b := by
  unfold earlier
  split
  · exact Or.inr rfl
  · exact Or.inl rfl

theorem earlier_le (a b : TypeName) :
    (earlier a b).text ≤ a.text ∧ (earlier a b).text ≤ b.text := by
  unfold earlier
  split
  · rename_i h
    exact ⟨fun hlt => String.lt_asymm (before_iff.1 h) hlt, String.le_refl _⟩
  · rename_i h
    rw [before_iff, String.not_lt] at h
    exact ⟨String.le_refl _, h⟩

theorem foldl_earlier (l : List TypeName) (a : TypeName) :
    l.foldl earlier a ∈ a :: l ∧ ∀ m ∈ a :: l, (l.foldl earlier a).text ≤ m.text := by
  induction l generalizing a with
  | nil => simp
  | cons b rest ih =>
    obtain ⟨mem, least⟩ := ih (earlier a b)
    have ⟨ha, hb⟩ := earlier_le a b
    have hfirst := least _ List.mem_cons_self
    refine ⟨?_, fun m hm => ?_⟩
    · rcases List.mem_cons.1 mem with h | h
      · rw [List.foldl_cons, h]
        rcases earlier_mem a b with h' | h' <;> simp [h']
      · exact List.mem_cons_of_mem _ (List.mem_cons_of_mem _ h)
    · rcases List.mem_cons.1 hm with rfl | hm
      · exact String.le_trans hfirst ha
      · rcases List.mem_cons.1 hm with rfl | hm
        · exact String.le_trans hfirst hb
        · exact least m (List.mem_cons_of_mem _ hm)

theorem first?_eq_none_iff {l : List TypeName} : first? l = none ↔ l = [] := by
  cases l <;> simp [first?]

/-- The first of several names is one of them, and none of them comes before it. -/
theorem first?_spec {l : List TypeName} {n : TypeName} (h : first? l = some n) :
    n ∈ l ∧ ∀ m ∈ l, n.text ≤ m.text := by
  cases l with
  | nil => simp [first?] at h
  | cons a rest =>
    obtain rfl : rest.foldl earlier a = n := by simpa [first?] using h
    exact foldl_earlier rest a

/-- Where no two names share a text, it is the only one that none comes before. -/
theorem first?_eq_some_iff {l : List TypeName} {n : TypeName}
    (distinct : ∀ m ∈ l, ∀ m' ∈ l, m.text = m'.text → m = m') :
    first? l = some n ↔ n ∈ l ∧ ∀ m ∈ l, n.text ≤ m.text := by
  refine ⟨first?_spec, fun ⟨mem, least⟩ => ?_⟩
  cases hf : first? l with
  | none => simp [first?_eq_none_iff.1 hf] at mem
  | some f =>
    obtain ⟨memf, leastf⟩ := first?_spec hf
    rw [distinct f memf n mem (String.le_antisymm (leastf n mem) (least f memf))]

end RecordViews.TypeName
