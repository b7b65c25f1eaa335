import RecordViews.Proofs.ReadNames
import RecordViews.Source.Options

/-! Readers take tokens off the front: what they leave is the end of the stream they are given. -/

namespace RecordViews.Grammar

/-- What the reader leaves is the end of what it is given. -/
class Takes {ε α : Type} (r : StateT Input (Except ε) α) : Prop where
  suffix : ∀ i a rest, r i = .ok (a, rest) → rest.stream <:+ i.stream

theorem Stream.afterGroup_suffix (s : Stream) (depth : Nat) : s.afterGroup depth <:+ s := by
  induction s generalizing depth with
  | nil => exact List.suffix_rfl
  | cons p rest ih =>
    unfold Stream.afterGroup
    split
    · exact (ih _).trans (List.suffix_cons p rest)
    · exact List.suffix_cons p rest
    · exact (ih _).trans (List.suffix_cons p rest)
    · exact (ih _).trans (List.suffix_cons p rest)

section Combined

variable {ε α β : Type} {r r' : StateT Input (Except ε) α} {f : α → StateT Input (Except ε) β}

instance {a : α} : Takes (pure a : StateT Input (Except ε) α) where
  suffix i b rest given := by
    cases given
    exact List.suffix_rfl

instance [Takes r] [∀ a, Takes (f a)] : Takes (r >>= f) where
  suffix i b rest given := by
    change (r i >>= fun both => f both.1 both.2) = .ok (b, rest) at given
    obtain ⟨⟨a, left⟩, first, second⟩ := bind_ok_iff.1 given
    exact (Takes.suffix _ _ _ second).trans (Takes.suffix _ _ _ first)

/-- What is read next may be looked at before the rest is known to take tokens off the front. -/
theorem takes_bind [Takes r] (h : ∀ a, Takes (f a)) : Takes (r >>= f) :=
  inferInstance

instance {c : Prop} [Decidable c] [Takes r] [Takes r'] : Takes (if c then r else r') := by
  split <;> infer_instance

instance {step : α → StateT Input (Except ε) (α × Bool)} [∀ a, Takes (step a)] (n : Nat) (a : α) :
    Takes (repeatWith step n a) := by
  induction n generalizing a with
  | zero => exact inferInstanceAs (Takes (pure a))
  | succ n ih =>
    exact inferInstanceAs
      (Takes (step a >>= fun next => if next.2 then repeatWith step n next.1 else pure next.1))

instance {step : α → StateT Input (Except ε) (α × Bool)} {a : α} [∀ a, Takes (step a)] :
    Takes (loop a step) where
  suffix i b rest given :=
    Takes.suffix (r := repeatWith step (i.stream.length + 2) a) i b rest given

end Combined

section Simple

variable {α : Type} {r : Reader α}

theorem takes_taking {f : Stream → Except Fault (α × Stream)}
    (h : ∀ s a rest, f s = .ok (a, rest) → rest <:+ s) : Takes (taking f) where
  suffix i a rest given := by
    obtain ⟨⟨b, left⟩, taken, same⟩ := map_ok_iff.1 given
    cases same
    exact h _ _ _ taken

/-- A reader that only looks, or fails. -/
theorem takes_looking (h : ∀ i a rest, r i = .ok (a, rest) → rest = i) : Takes r where
  suffix i a rest given := h i a rest given ▸ List.suffix_rfl

instance {p : Stream → Bool} : Takes (sees p) :=
  takes_looking fun i a rest given => by cases given; rfl

instance : Takes atEnd :=
  inferInstanceAs (Takes (sees _))

instance {what : String} : Takes (expected what : Reader α) :=
  takes_looking fun _ _ _ given => by cases given

instance {operator : String} : Takes (mark operator) :=
  takes_taking fun s a rest given => by
    split at given <;> cases given
    exact List.drop_suffix _ _

instance {operator : String} : Takes (mark? operator) := by
  unfold mark?
  infer_instance

instance : Takes anyWord :=
  takes_taking fun s a rest given => by
    split at given <;> cases given
    exact List.drop_suffix _ _

instance : Takes literal :=
  takes_taking fun s a rest given => by
    split at given
    · cases given
      exact List.suffix_cons _ _
    · split at given <;> cases given
      exact List.suffix_cons _ _
    · split at given <;> cases given
      exact (List.suffix_cons _ _).trans (List.suffix_cons _ _)
    · cases given

instance : Takes stringLiteral :=
  takes_taking fun s a rest given => by
    split at given
    · split at given <;> cases given
      exact List.suffix_cons _ _
    · cases given

instance {d : Delimiter} [Takes r] : Takes (group d r) where
  suffix i a rest given := by
    unfold group at given
    split at given
    · rename_i within
      rw [within]
      split at given
      · split at given
        · cases given
        · rename_i taken
          cases given
          exact ((List.suffix_cons _ _).trans (Takes.suffix _ _ _ taken)).trans
            (List.suffix_cons _ _)
        · rename_i taken
          cases given
          exact ((Stream.afterGroup_suffix _ _).trans (Takes.suffix _ _ _ taken)).trans
            (List.suffix_cons _ _)
      · cases given
    · cases given

instance [Takes r] : Takes (commaList r) := by
  unfold commaList
  infer_instance

end Simple

end RecordViews.Grammar
