import Mathlib.Data.List.Infix
import RecordViews.Pattern.Reader

/-!
Readers that see the end of a group. Where a closing parenthesis comes behind a text, a reader that
leaves the parenthesis does with the text alone what it does in front of it; a reader that is called
at the parenthesis refuses, or it takes it.
-/

namespace RecordViews.Pattern

open PatternReader

def State.left (st : State) (s : List Char) : State :=
  { st with rest := s }

@[simp] theorem State.left_rest (st : State) (s : List Char) : (st.left s).rest = s := rfl

@[simp] theorem State.left_flags (st : State) (s : List Char) : (st.left s).flags = st.flags := rfl

theorem State.left_eq_left_iff {st st' : State} {s s' : List Char} :
    st.left s = st'.left s' ↔ s = s' ∧ st.flags = st'.flags ∧ st.names = st'.names := by
  simp [State.left]

theorem State.left_self (st : State) : st.left st.rest = st := rfl

theorem State.eq_left {st : State} {s : List Char} (h : st.rest = s) : st = st.left s := by
  rw [← h, st.left_self]

/-- What the reader leaves is the end of what it is given. -/
class Shrinks {α : Type} (r : PatternReader α) : Prop where
  suffix : ∀ (st : State) a st', r st = some (a, st') → st'.rest <:+ st.rest

/-- The reader refuses, or it takes a character, if there is one. -/
class Drops {α : Type} (r : PatternReader α) : Prop where
  dropped : ∀ (st : State) a st', r st = some (a, st') → st'.rest <:+ st.rest.drop 1

/-- Where a group ends, the reader refuses, or it takes the parenthesis. -/
class Passes (after : List Char) {α : Type} (r : PatternReader α) : Prop where
  past : ∀ (st : State) a st', r (st.left (')' :: after)) = some (a, st') → st'.rest <:+ after

/-- As long as the reader leaves the end of the group, with `k` characters in front of it, it reads
the same where the text stops there. -/
class Local (k : Nat) (after : List Char) {α : Type} (r : PatternReader α) : Prop where
  suffix : ∀ (st : State) a st', r st = some (a, st') → st'.rest <:+ st.rest
  within : ∀ (st : State) s a (st' : State) (s' : List Char), k ≤ s'.length →
    r (st.left (s ++ ')' :: after)) = some (a, st'.left (s' ++ ')' :: after)) →
    r (st.left s) = some (a, st'.left s')

/-- The reader does not look at the text. -/
class Blind {α : Type} (r : PatternReader α) : Prop where
  result : ∃ x : Option α, ∀ st, r st = x.map (·, st)

variable {k : Nat} {after : List Char} {α β : Type}

theorem bind_eq_some_iff {r : PatternReader α} {f : α → PatternReader β} {st st' : State} {b : β} :
    (r >>= f) st = some (b, st') ↔ ∃ a mid, r st = some (a, mid) ∧ f a mid = some (b, st') := by
  change (r st >>= fun both => f both.1 both.2) = _ ↔ _
  rw [Option.bind_eq_bind, Option.bind_eq_some_iff]
  exact ⟨fun ⟨both, first, second⟩ => ⟨both.1, both.2, first, second⟩,
    fun ⟨a, mid, first, second⟩ => ⟨(a, mid), first, second⟩⟩

theorem refuse_bind {f : α → PatternReader β} : (refuse >>= f) = refuse := rfl

/-- A text whose end is as long as that of a group and what follows it ends with the same. -/
theorem exists_left {l s s' : List Char} (sub : l <:+ s ++ ')' :: after)
    (long : s' ++ ')' :: after <:+ l) : ∃ s₁, l = s₁ ++ ')' :: after ∧ s'.length ≤ s₁.length := by
  obtain ⟨front, rfl⟩ := long
  refine ⟨front ++ s', by simp, by simp⟩

/-- The end of a text goes beyond the end of the group, or it does not. -/
theorem inside_or {l s : List Char} (sub : l <:+ s ++ ')' :: after) :
    (∃ c s₁, l = c :: s₁ ++ ')' :: after) ∨ l <:+ ')' :: after := by
  rcases List.suffix_or_suffix_of_suffix sub (List.suffix_append s (')' :: after)) with
    past | inside
  · exact Or.inr past
  · obtain ⟨front, rfl⟩ := inside
    cases front with
    | nil => exact Or.inr List.suffix_rfl
    | cons c s₁ => exact Or.inl ⟨c, s₁, rfl⟩

theorem not_past {s : List Char} : ¬ s ++ ')' :: after <:+ after := by
  intro sub
  have less := sub.length_le
  rw [List.length_append, List.length_cons] at less
  omega

section Blindness

variable {r r' : PatternReader α} {f : α → PatternReader β}

instance {a : α} : Blind (pure a : PatternReader α) := ⟨some a, fun _ => rfl⟩

instance : Blind (refuse : PatternReader α) := ⟨none, fun _ => rfl⟩

instance {c : Prop} [Decidable c] [Blind r] [Blind r'] : Blind (if c then r else r') := by
  split <;> infer_instance

instance [Blind r] [∀ a, Blind (f a)] : Blind (r >>= f) where
  result := by
    obtain ⟨x, hx⟩ := Blind.result (r := r)
    cases x with
    | none => exact ⟨none, fun st => by change (r st >>= _) = _; rw [hx]; rfl⟩
    | some a =>
      obtain ⟨y, hy⟩ := Blind.result (r := f a)
      exact ⟨y, fun st => by change (r st >>= _) = _; rw [hx, ← hy]; rfl⟩

theorem Blind.stays [Blind r] {st st' : State} {a : α} (h : r st = some (a, st')) :
    st' = st ∧ ∀ st, r st = some (a, st) := by
  obtain ⟨x, hx⟩ := Blind.result (r := r)
  rw [hx] at h
  obtain ⟨b, rfl, same⟩ := Option.map_eq_some_iff.1 h
  obtain ⟨rfl, rfl⟩ := Prod.mk.inj same
  exact ⟨rfl, hx⟩

instance (priority := low) [Blind r] : Shrinks r where
  suffix _ _ _ h := (Blind.stays h).1 ▸ List.suffix_rfl

instance (priority := low) [Blind r] : Local k after r where
  suffix := Shrinks.suffix
  within st s a st' s' _ h := by
    obtain ⟨same, all⟩ := Blind.stays h
    have rest : s' = s := List.append_cancel_right (congrArg State.rest same)
    obtain ⟨-, others⟩ := State.left_eq_left_iff.1 same
    rw [State.left_eq_left_iff.2 ⟨rest, others⟩]
    exact all _

theorem local_of_blind (h : Blind r) : Local k after r :=
  inferInstance

end Blindness

section Combined

variable {r r' : PatternReader α} {f : α → PatternReader β}

instance [Shrinks r] [∀ a, Shrinks (f a)] : Shrinks (r >>= f) where
  suffix st b st' h := by
    obtain ⟨a, mid, first, second⟩ := bind_eq_some_iff.1 h
    exact (Shrinks.suffix _ _ _ second).trans (Shrinks.suffix _ _ _ first)

instance {c : Prop} [Decidable c] [Shrinks r] [Shrinks r'] : Shrinks (if c then r else r') := by
  split <;> infer_instance

instance {c : Prop} [Decidable c] [Passes after r] [Passes after r'] :
    Passes after (if c then r else r') := by
  split <;> infer_instance

instance {c : Prop} [Decidable c] [Local k after r] [Local k after r'] :
    Local k after (if c then r else r') := by
  split <;> infer_instance

instance {c : Prop} [Decidable c] [Drops r] [Drops r'] : Drops (if c then r else r') := by
  split <;> infer_instance

instance : Drops (refuse : PatternReader α) where
  dropped _ _ _ h := by cases h

instance (priority := low) [Drops r] : Passes after r where
  past st a st' h := Drops.dropped (st.left _) a st' h

instance (priority := low) [Drops r] : Shrinks r where
  suffix st a st' h := (Drops.dropped st a st' h).trans (List.drop_suffix _ _)

theorem shorter {l s : List Char} {c : Char} (next : s.head? = some c) (h : l <:+ s.drop 1) :
    l.length < s.length := by
  cases s with
  | nil => cases next
  | cons d s => exact Nat.lt_succ_of_le h.length_le

theorem Drops.shorter [Drops r] {st st' : State} {a : α} {c : Char} (next : st.rest.head? = some c)
    (h : r st = some (a, st')) : st'.rest.length < st.rest.length :=
  Pattern.shorter next (Drops.dropped st a st' h)

/-- What is taken first stays taken. -/
instance [Drops r] [∀ a, Shrinks (f a)] : Drops (r >>= f) where
  dropped st b st' h := by
    obtain ⟨a, mid, first, second⟩ := bind_eq_some_iff.1 h
    exact (Shrinks.suffix _ _ _ second).trans (Drops.dropped _ _ _ first)

instance [Passes after r] [∀ a, Shrinks (f a)] : Passes after (r >>= f) where
  past st b st' h := by
    obtain ⟨a, mid, first, second⟩ := bind_eq_some_iff.1 h
    exact (Shrinks.suffix _ _ _ second).trans (Passes.past _ _ _ first)

/-- What is taken second is taken of what the first leaves. -/
theorem drops_after [Shrinks r] (h : ∀ a, Drops (f a)) : Drops (r >>= f) where
  dropped st b st' given := by
    obtain ⟨a, mid, first, second⟩ := bind_eq_some_iff.1 given
    have less := (h a).dropped _ _ _ second
    obtain ⟨front, whole⟩ := Shrinks.suffix _ _ _ first
    cases front with
    | nil =>
      rw [← whole]
      exact less
    | cons c front =>
      rw [← whole]
      exact (less.trans (List.drop_suffix _ _)).trans (List.suffix_append front mid.rest)

theorem drops_bind [Drops r] (h : ∀ a, Shrinks (f a)) : Drops (r >>= f) :=
  inferInstance

/-- What is read next may be looked at before the rest is known to shrink. -/
theorem shrinks_bind [Shrinks r] (h : ∀ a, Shrinks (f a)) : Shrinks (r >>= f) :=
  inferInstance

instance [Local k after r] [∀ a, Local k after (f a)] : Local k after (r >>= f) where
  suffix st b st' h := by
    obtain ⟨a, mid, first, second⟩ := bind_eq_some_iff.1 h
    exact (Local.suffix k after _ _ _ second).trans (Local.suffix k after _ _ _ first)
  within st s b st' s' enough h := by
    obtain ⟨a, mid, first, second⟩ := bind_eq_some_iff.1 h
    obtain ⟨s₁, at_, more⟩ := exists_left (Local.suffix k after _ _ _ first)
      (Local.suffix k after _ _ _ second)
    rw [State.eq_left at_] at first second
    exact bind_eq_some_iff.2 ⟨a, mid.left s₁, Local.within _ _ _ _ _ (enough.trans more) first,
      Local.within _ _ _ _ _ enough second⟩

theorem Local.shrinks (h : Local k after r) : Shrinks r :=
  ⟨h.suffix⟩

theorem passes_bind [Passes after r] (h : ∀ a, Shrinks (f a)) : Passes after (r >>= f) :=
  inferInstance

theorem local_bind [Local k after r] (h : ∀ a, Local k after (f a)) : Local k after (r >>= f) :=
  inferInstance

theorem bind_at {st mid : State} {a : α} (h : r st = some (a, mid)) : (r >>= f) st = f a mid := by
  change (r st >>= _) = _
  rw [h]
  rfl

theorem bind_congr_left {r' : PatternReader α} {st : State} (h : r st = r' st) :
    (r >>= f) st = (r' >>= f) st := by
  change (r st >>= _) = (r' st >>= _)
  rw [h]

/-- What comes next need only be the same where the first reader can leave off. -/
theorem bind_congr_at {g : α → PatternReader β} {st : State}
    (h : ∀ a mid, r st = some (a, mid) → f a mid = g a mid) : (r >>= f) st = (r >>= g) st := by
  change (r st >>= fun both => f both.1 both.2) = (r st >>= fun both => g both.1 both.2)
  cases first : r st with
  | none => rfl
  | some both => exact h both.1 both.2 first

/-- Before something is taken, there is something to take. -/
theorem local_before [Local 1 after r] (h : ∀ a, Local 0 after (f a))
    (close : ∀ a, Passes after (f a)) : Local 0 after (r >>= f) where
  suffix st b st' given := by
    obtain ⟨a, mid, first, second⟩ := bind_eq_some_iff.1 given
    exact ((h a).suffix _ _ _ second).trans (Local.suffix 1 after _ _ _ first)
  within st s b st' s' enough given := by
    obtain ⟨a, mid, first, second⟩ := bind_eq_some_iff.1 given
    obtain ⟨s₁, at_, more⟩ := exists_left (Local.suffix 1 after _ _ _ first)
      ((h a).suffix _ _ _ second)
    rw [State.eq_left at_] at first second
    have some : 1 ≤ s₁.length := by
      cases s₁ with
      | nil => exact absurd ((close a).past _ _ _ second) not_past
      | cons c s₁ => simp
    exact bind_eq_some_iff.2 ⟨a, mid.left s₁, Local.within _ _ _ _ _ some first,
      (h a).within _ _ _ _ _ enough second⟩

end Combined

section Looking

variable {f : Option Char → PatternReader β} {g : State → PatternReader β}

theorem peek_bind (st : State) : (peek >>= f) st = f st.rest.head? st := rfl

theorem get_bind (st : State) : (get >>= g) st = g st st := rfl

theorem rest_bind {h : List Char → PatternReader β} (st : State) : (rest >>= h) st = h st.rest st :=
  rfl

instance [∀ st, Shrinks (g st)] : Shrinks (get >>= g) where
  suffix st b st' h := Shrinks.suffix (r := g st) st b st' h

instance [∀ c, Shrinks (f c)] : Shrinks (peek >>= f) where
  suffix st b st' h := Shrinks.suffix (r := f st.rest.head?) st b st' h

/-- With something left in front of the end, the next character is not that of the end. -/
theorem local_look (each : ∀ c, Local 1 after (f c)) : Local 1 after (peek >>= f) where
  suffix st b st' h := (each st.rest.head?).suffix st b st' h
  within st s b st' s' enough h := by
    cases s with
    | nil =>
      have long : (s' ++ ')' :: after).length ≤ (')' :: after).length :=
        ((each (some ')')).suffix _ _ _ h).length_le
      rw [List.length_append] at long
      omega
    | cons c s => exact (each (some c)).within _ _ _ _ _ enough h

theorem shrinks_peek (h : ∀ c, Shrinks (f c)) : Shrinks (peek >>= f) :=
  inferInstance

theorem shrinks_get (h : ∀ st, Shrinks (g st)) : Shrinks (get >>= g) :=
  inferInstance

theorem shrinks_rest {h : List Char → PatternReader β} (each : ∀ s, Shrinks (h s)) :
    Shrinks (rest >>= h) where
  suffix st b st' given := (each st.rest).suffix st b st' given

theorem drops_peek (h : ∀ c, Drops (f c)) : Drops (peek >>= f) where
  dropped st b st' given := (h st.rest.head?).dropped st b st' given

theorem passes_peek (close : Passes after (f (some ')'))) : Passes after (peek >>= f) where
  past st b st' h := close.past st b st' h

/-- At the end the next character is the parenthesis, or there is none. -/
theorem local_peek (each : ∀ c, Local k after (f c)) (close : Passes after (f (some ')'))) :
    Local k after (peek >>= f) where
  suffix st b st' h := (each st.rest.head?).suffix st b st' h
  within st s b st' s' enough h := by
    cases s with
    | nil => exact absurd (close.past _ _ _ h) not_past
    | cons c s => exact (each (some c)).within _ _ _ _ _ enough h

/-- Where it makes no difference that a parenthesis comes next. -/
theorem local_peek_same (each : ∀ c, Local k after (f c)) (same : f (some ')') = f none) :
    Local k after (peek >>= f) where
  suffix st b st' h := (each st.rest.head?).suffix st b st' h
  within st s b st' s' enough h := by
    cases s with
    | nil =>
      change f (some ')') _ = _ at h
      rw [same] at h
      exact (each none).within st [] b st' s' enough h
    | cons c s => exact (each (some c)).within _ _ _ _ _ enough h

/-- The text itself may be looked at as far as its end makes no difference. -/
theorem local_rest {h : List Char → PatternReader β} (each : ∀ s, Local k after (h s))
    (same : ∀ s, k ≤ s.length → h (s ++ ')' :: after) = h s) : Local k after (rest >>= h) where
  suffix st b st' given := (each st.rest).suffix st b st' given
  within st s b st' s' enough given := by
    change h (s ++ ')' :: after) (st.left _) = _ at given
    have long : k ≤ s.length := by
      have less : (s' ++ ')' :: after).length ≤ (s ++ ')' :: after).length :=
        ((each _).suffix _ _ _ given).length_le
      rw [List.length_append, List.length_append] at less
      omega
    rw [same s long] at given
    exact (each s).within _ _ _ _ _ enough given

theorem passes_get (h : ∀ st, Passes after (g st)) : Passes after (get >>= g) where
  past st b st' given := (h _).past st b st' given

/-- Flags and names do not depend on what is left. -/
theorem local_get (each : ∀ st, Local k after (g st)) (same : ∀ st s, g (st.left s) = g st) :
    Local k after (get >>= g) where
  suffix st b st' h := (each st).suffix st b st' h
  within st s b st' s' enough h := by
    change g (st.left _) _ = _ at h
    change g (st.left s) _ = _
    rw [same] at h ⊢
    exact (each st).within _ _ _ _ _ enough h

end Looking

section Simple

/-- A reader that only moves on is local if it does where it stops what it does before the end. -/
theorem local_of_left {r : PatternReader α} [Shrinks r] (move : Flags → List Char → α × List Char)
    (moves : ∀ st, r st = some ((move st.flags st.rest).1, st.left (move st.flags st.rest).2))
    (h : ∀ f s s', k ≤ s'.length → (move f (s ++ ')' :: after)).2 = s' ++ ')' :: after →
      move f s = ((move f (s ++ ')' :: after)).1, s')) : Local k after r where
  suffix := Shrinks.suffix
  within st s a st' s' enough given := by
    rw [moves] at given ⊢
    obtain ⟨rfl, same⟩ := Prod.mk.inj (Option.some.inj given)
    obtain ⟨stop, others⟩ := State.left_eq_left_iff.1 same
    simp only [State.left_rest, State.left_flags] at stop ⊢
    rw [h _ s s' enough stop]
    exact congrArg (fun st => some (_, st)) (State.left_eq_left_iff.2 ⟨rfl, others⟩)

theorem append_cancel {s s' : List Char} : s ++ ')' :: after = s' ++ ')' :: after ↔ s = s' :=
  List.append_left_inj _

theorem ne_append {s s' : List Char} (sub : s <:+ after) : s ≠ s' ++ ')' :: after :=
  fun same => not_past (same ▸ sub)

theorem take_eq (st : State) : take st = some ((), st.left (st.rest.drop 1)) := rfl

theorem take_cons {st : State} {c : Char} {s : List Char} (h : st.rest = c :: s) :
    take st = some ((), st.left s) := by
  rw [take_eq, h]
  rfl

instance : Drops take where
  dropped st a st' h := by
    rw [take_eq] at h
    cases h
    exact List.suffix_rfl

instance : Local k after take := by
  refine local_of_left (fun _ s => ((), s.drop 1)) take_eq fun f s s' _ stop => ?_
  cases s with
  | nil => exact absurd stop (ne_append List.suffix_rfl)
  | cons c s =>
    have stop : s = s' := append_cancel.1 stop
    rw [stop]
    rfl

theorem skipSpaces_suffix (n : Nat) (s : List Char) : skipSpaces n s <:+ s := by
  induction n generalizing s with
  | zero => exact List.suffix_rfl
  | succ n ih =>
    cases s with
    | nil => exact List.suffix_rfl
    | cons c s =>
      rw [skipSpaces]
      split
      · exact (ih s).trans (List.suffix_cons c s)
      · split
        · exact (ih _).trans (List.dropWhile_suffix _)
        · exact List.suffix_rfl

theorem not_blank_close : Text.isBlank ')' = false := by decide

theorem dropWhile_append_close {p : Char → Bool} (h : p ')' = false) (s : List Char) :
    (s ++ ')' :: after).dropWhile p = s.dropWhile p ++ ')' :: after := by
  rw [List.dropWhile_append]
  split
  · rename_i none
    rw [List.isEmpty_iff.1 none, List.dropWhile_cons_of_neg (by simpa using h)]
    rfl
  · rfl

/-- A run that the parenthesis would belong to goes beyond the end, or it ends before. -/
theorem takeWhile_close {p : Char → Bool} (close : p ')' = true) (s : List Char) :
    (s.drop (s.takeWhile p).length = [] ∧
      ∃ more, (s ++ ')' :: after).takeWhile p = s ++ ')' :: more) ∨
    ∃ c rest, s.drop (s.takeWhile p).length = c :: rest ∧
      (s ++ ')' :: after).takeWhile p = s.takeWhile p ∧
      (s ++ ')' :: after).drop (s.takeWhile p).length = c :: rest ++ ')' :: after := by
  induction s with
  | nil => exact Or.inl ⟨rfl, _, List.takeWhile_cons_of_pos close⟩
  | cons c s ih =>
    by_cases run : p c = true
    · simpa [List.takeWhile_cons_of_pos run] using ih
    · exact Or.inr ⟨c, s, by simp [List.takeWhile_cons_of_neg run]⟩

theorem skipSpaces_close (n : Nat) : skipSpaces (n + 1) (')' :: after) = ')' :: after := by
  rw [skipSpaces, if_neg (by simp [not_blank_close])]
  rfl

theorem skipSpaces_within {n m : Nat} {s s' : List Char}
    (h : skipSpaces n (s ++ ')' :: after) = s' ++ ')' :: after)
    (long : (s ++ ')' :: after).length < n) (short : s.length < m) : skipSpaces m s = s' := by
  induction n generalizing s m with
  | zero => simp at long
  | succ n ih =>
    obtain ⟨m, rfl⟩ : ∃ m', m = m' + 1 := ⟨m - 1, by omega⟩
    cases s with
    | nil =>
      rw [List.nil_append, skipSpaces_close] at h
      exact append_cancel.1 h
    | cons c s =>
      simp only [List.cons_append, List.length_cons] at h long short
      rw [skipSpaces] at h ⊢
      split
      · rename_i blank
        rw [if_pos blank] at h
        exact ih h (by omega) (by omega)
      · rename_i solid
        rw [if_neg solid] at h
        split
        · rename_i comment
          -- what the comment takes of the text, or all of it and the parenthesis
          have less : ((c :: s).dropWhile (· != '\n')).length ≤ s.length := by
            rw [eq_of_beq comment, List.dropWhile_cons_of_pos (by decide)]
            exact (List.dropWhile_suffix _).length_le
          rw [if_pos comment, ← List.cons_append, List.dropWhile_append] at h
          split at h
          · refine absurd h (ne_append ((skipSpaces_suffix _ _).trans ?_))
            rw [List.dropWhile_cons_of_pos (by decide)]
            exact List.dropWhile_suffix _
          · rw [List.length_append] at long
            exact ih h (by rw [List.length_append]; omega) (by omega)
        · rename_i other
          rw [if_neg other] at h
          exact append_cancel.1 h

theorem skip_eq (st : State) : skip st = some ((), st.left
    (if st.flags.spaced then skipSpaces (st.rest.length + 1) st.rest else st.rest)) := by
  cases spaced : st.flags.spaced <;> simp [skip, get_bind, spaced] <;> rfl

instance : Shrinks skip where
  suffix st a st' h := by
    rw [skip_eq] at h
    cases h
    rw [State.left_rest]
    split
    · exact skipSpaces_suffix _ _
    · exact List.suffix_rfl

instance : Local k after skip := by
  refine local_of_left (fun f s => ((), if f.spaced then skipSpaces (s.length + 1) s else s))
    skip_eq fun f s s' _ stop => ?_
  dsimp only at stop ⊢
  split at stop
  · rw [skipSpaces_within stop (Nat.lt_succ_self _) (Nat.lt_succ_self _)]
    simp [*]
  · simp_all

theorem skip_plain {st : State} (h : st.flags.spaced = false) : skip st = some ((), st) := by
  rw [skip_eq, h, if_neg (by decide), State.left_self]

theorem skip_brace {st : State} (h : st.rest.head? = some '\x7b') : skip st = some ((), st) := by
  obtain ⟨s, text⟩ : ∃ s, st.rest = '\x7b' :: s := by
    cases text : st.rest with
    | nil => simp [text] at h
    | cons c s =>
      rw [text] at h
      exact ⟨s, by rw [Option.some.inj h]⟩
  have solid (n : Nat) : skipSpaces (n + 1) ('\x7b' :: s) = '\x7b' :: s := by
    rw [skipSpaces, if_neg (by decide), if_neg (by decide)]
  rw [skip_eq, text, solid, ite_self, ← text, State.left_self]

theorem skip_close (st : State) : skip (st.left (')' :: after)) =
    some ((), st.left (')' :: after)) := by
  rw [skip_eq, State.left_rest]
  split
  · rw [skipSpaces_close]
    rfl
  · rfl

theorem passes_skip {f : Unit → PatternReader β} (h : Passes after (f ())) :
    Passes after (skip >>= f) where
  past st b st' given := by
    obtain ⟨⟨⟩, mid, moved, given⟩ := bind_eq_some_iff.1 given
    rw [skip_close] at moved
    cases moved
    exact h.past _ _ _ given

instance : Drops bump :=
  inferInstanceAs (Drops (take >>= fun _ => skip))

instance : Local k after bump :=
  inferInstanceAs (Local k after (take >>= fun _ => skip))

theorem bump_left {st mid : State} (h : bump st = some ((), mid)) : mid = st.left mid.rest := by
  change (take >>= fun _ => skip) st = _ at h
  obtain ⟨⟨⟩, mid', first, second⟩ := bind_eq_some_iff.1 h
  rw [take_eq] at first
  cases first
  rw [skip_eq] at second
  cases second
  rfl

theorem eat_eq (text : String) (st : State) : eat text st =
    some (text.toList.isPrefixOf st.rest, st.left
      (if text.toList.isPrefixOf st.rest then st.rest.drop text.length else st.rest)) := by
  rw [eat, rest_bind]
  cases text.toList.isPrefixOf st.rest <;> rfl

instance {text : String} : Shrinks (eat text) where
  suffix st a st' h := by
    rw [eat_eq] at h
    cases h
    rw [State.left_rest]
    split
    · exact List.drop_suffix _ _
    · exact List.suffix_rfl

instance {text : String} : Local k after (eat text) := by
  refine local_of_left (fun _ s => (text.toList.isPrefixOf s,
    if text.toList.isPrefixOf s then s.drop text.length else s)) (eat_eq text)
    fun _ s s' _ stop => ?_
  dsimp only at stop ⊢
  split at stop
  · rename_i next
    obtain ⟨rest, whole⟩ := List.isPrefixOf_iff_prefix.1 next
    have stop : rest = s' ++ ')' :: after := by
      rw [← stop, ← whole, ← String.length_toList, List.drop_left]
    rw [stop, ← List.append_assoc] at whole
    rw [next, ← append_cancel.1 whole, List.isPrefixOf_iff_prefix.2 (List.prefix_append _ _),
      if_pos rfl, ← String.length_toList, List.drop_left]
  · rename_i other
    obtain rfl := append_cancel.1 stop
    have shorter : text.toList.isPrefixOf s = false := by
      rw [← Bool.not_eq_true, List.isPrefixOf_iff_prefix]
      rw [List.isPrefixOf_iff_prefix] at other
      exact fun sub => other (sub.trans (List.prefix_append _ _))
    simp [shorter, other]

instance : Shrinks lazyMark :=
  inferInstanceAs (Shrinks (eat "?" >>= fun _ => pure ()))

instance : Local k after lazyMark :=
  inferInstanceAs (Local k after (eat "?" >>= fun _ => pure ()))

end Simple

section Runs

variable {p : Char → Bool}

instance {n : Nat} {done : List Char} : Shrinks (takeWhileUpTo p n done) := by
  induction n generalizing done with
  | zero => exact inferInstanceAs (Shrinks (pure _))
  | succ n ih =>
    unfold takeWhileUpTo
    refine shrinks_peek fun c => ?_
    cases c <;> infer_instance

instance {n : Nat} {done : List Char} : Local k after (takeWhileUpTo p n done) := by
  induction n generalizing done with
  | zero => exact inferInstanceAs (Local k after (pure _))
  | succ n ih =>
    unfold takeWhileUpTo
    have each (c : Option Char) : Local k after (match c with
        | some c => if p c = true then bump >>= fun _ => takeWhileUpTo p n (c :: done)
          else pure done.reverse
        | none => pure done.reverse) := by
      cases c <;> infer_instance
    cases close : p ')' with
    | true =>
      have : Passes after (if p ')' = true then bump >>= fun _ => takeWhileUpTo p n (')' :: done)
          else pure done.reverse) := by
        rw [if_pos close]
        infer_instance
      exact local_peek each this
    | false => exact local_peek_same each (if_neg (by simp [close]))

theorem takeWhileUpTo_end (n : Nat) (done : List Char) {st : State} (none : st.rest = []) :
    takeWhileUpTo p n done st = some (done.reverse, st) := by
  cases n with
  | zero => rfl
  | succ n => rw [takeWhileUpTo, peek_bind, none]; rfl

/-- No more characters are taken than there are. -/
theorem takeWhileUpTo_enough {n m : Nat} {done : List Char} {st : State}
    (hn : st.rest.length ≤ n) (hm : st.rest.length ≤ m) :
    takeWhileUpTo p n done st = takeWhileUpTo p m done st := by
  induction n generalizing m done st with
  | zero =>
    have none : st.rest = [] := by simpa using hn
    rw [takeWhileUpTo_end _ _ none, takeWhileUpTo_end _ _ none]
  | succ n ih =>
    cases text : st.rest with
    | nil => rw [takeWhileUpTo_end _ _ text, takeWhileUpTo_end _ _ text]
    | cons c s =>
      rw [text, List.length_cons] at hn hm
      obtain ⟨m, rfl⟩ : ∃ m', m = m' + 1 := ⟨m - 1, by omega⟩
      rw [takeWhileUpTo, takeWhileUpTo, peek_bind, peek_bind, text, List.head?_cons]
      dsimp only
      split
      · change (bump st >>= fun both => _) = (bump st >>= fun both => _)
        cases moved : bump st with
        | none => rfl
        | some both =>
          have less := (Drops.dropped _ _ _ moved).length_le
          rw [text, List.drop_succ_cons, List.drop_zero] at less
          exact ih (by omega) (by omega)
      · rfl

theorem takeWhileUpTo_close (close : p ')' = false) (n : Nat) (done : List Char) (st : State) :
    takeWhileUpTo p n done (st.left (')' :: after)) =
      some (done.reverse, st.left (')' :: after)) := by
  cases n with
  | zero => rfl
  | succ n =>
    rw [takeWhileUpTo, peek_bind, State.left_rest, List.head?_cons]
    dsimp only
    rw [if_neg (by simp [close])]
    rfl

theorem takeAll_close (close : p ')' = false) (st : State) :
    takeAll p (st.left (')' :: after)) = some ([], st.left (')' :: after)) :=
  takeWhileUpTo_close close _ [] st

/-- Where the parenthesis belongs to no run, it is for what follows. -/
theorem passes_run {f : List Char → PatternReader β} (close : p ')' = false) (n : Nat)
    (done : List Char) (h : Passes after (f done.reverse)) :
    Passes after (takeWhileUpTo p n done >>= f) where
  past st b st' given := by
    obtain ⟨run, mid, first, second⟩ := bind_eq_some_iff.1 given
    rw [takeWhileUpTo_close close] at first
    obtain ⟨rfl, rfl⟩ := Prod.mk.inj (Option.some.inj first)
    exact h.past _ _ _ second

instance : Shrinks (takeAll p) where
  suffix st a st' h := Shrinks.suffix (r := takeWhileUpTo p st.rest.length []) st a st' h

instance : Local k after (takeAll p) where
  suffix := Shrinks.suffix
  within st s a st' s' enough h := by
    have h := Local.within (r := takeWhileUpTo p (s ++ ')' :: after).length []) _ _ _ _ _ enough h
    rw [takeWhileUpTo_enough (m := s.length) (by simp) (by simp)] at h
    exact h

end Runs

end RecordViews.Pattern
