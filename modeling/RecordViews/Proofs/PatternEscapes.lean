import RecordViews.Proofs.PatternReaders

/-!
Escapes and counts at the end of a group. The one reader among them that looks beyond what it takes
is that of a word boundary: a brace behind it opens the name of a boundary, or else a repetition.
-/

namespace RecordViews.Pattern

open PatternReader

variable {k : Nat} {after : List Char} {α β : Type}

section Escapes

variable {flags : Flags} {set : Text.CodePoints} {a : Atom}

instance : Blind (checkAscii flags set) := by
  unfold checkAscii
  infer_instance

instance : Blind (atomNode flags a) := by
  unfold atomNode
  cases a <;> infer_instance

theorem blind_char (o : Option Char) (byte : Bool) : Blind (match o with
    | some c => (pure (.char c byte) : PatternReader Atom)
    | none => refuse) := by
  split <;> infer_instance

instance {letter : Char} : Local k after (hexEscape letter) := by
  unfold hexEscape
  simp only [refuse_bind]
  refine local_bind fun _ => local_peek (fun c => ?_) ?_
  · split
    · infer_instance
    · refine local_bind fun _ => local_bind fun digits => local_peek (fun c => ?_) ?_
      · have := blind_char (charOf? (hexNumber digits)) false
        infer_instance
      · rw [if_pos (by simp)]
        infer_instance
    · refine local_bind fun digits => ?_
      have := blind_char (charOf? (hexNumber digits)) (letter == 'x')
      infer_instance
  · refine passes_run (by decide) _ _ ?_
    rw [if_pos]
    · infer_instance
    · split
      · decide
      · split <;> decide

theorem blind_set {unicode negated : Bool} {found : Option Text.CodePoints} :
    Blind (match unicode, found with
      | true, some s => (pure (.set (foldAndNegate flags negated s)) : PatternReader Atom)
      | _, _ => refuse) := by
  split <;> infer_instance

instance {negated : Bool} : Local k after (propertyEscape negated) := by
  unfold propertyEscape
  simp only [refuse_bind, pure_bind]
  refine local_get (fun st => ?_) (fun _ _ => rfl)
  have found (x : Option Text.CodePoints) := @blind_set st.flags st.flags.unicode negated x
  refine local_bind fun _ => local_peek (fun c => ?_) ?_
  · split
    · infer_instance
    · refine local_bind fun _ => local_bind fun text => local_peek (fun c => ?_) ?_
      · split
        · infer_instance
        · refine local_bind fun _ => ?_
          split <;> exact local_of_blind (found _)
      · rw [if_pos (by simp)]
        infer_instance
    · split
      · infer_instance
      · exact local_bind fun _ => local_of_blind (found _)
  · have := found (named? [')'])
    change Passes after (if (')' == '\\') = true then refuse else bump >>= fun _ => _)
    infer_instance

/-- What is left is a brace that opens a repetition, with nothing in it before the end. -/
def Dangling (after : List Char) (st : State) : Prop :=
  st.rest.head? = some '\x7b' ∧ ∀ mid, bump st = some ((), mid) → mid.rest <:+ ')' :: after

def isWordPart (c : Char) : Bool :=
  c.isAlpha || c == '-'

def boundaryName (word : Text.CodePoints) : PatternReader Look := do
  let name := String.ofList (← takeAll isWordPart)
  if (← peek) != some '\x7d' then refuse
  take
  if name == "start" then return .wordStart word
  else if name == "end" then return .wordEnd word
  else if name == "start-half" then return .halfStart word
  else if name == "end-half" then return .halfEnd word
  else refuse

theorem boundaryWord_other {word : Text.CodePoints} {st : State}
    (h : (st.rest.head? != some '\x7b') = true) :
    boundaryWord word st = some (.boundary word, st) := by
  rw [boundaryWord, rest_bind, if_pos h]
  rfl

theorem boundaryWord_brace {word : Text.CodePoints} {st : State}
    (h : st.rest.head? = some '\x7b') :
    boundaryWord word st = (bump >>= fun _ => peek >>= fun c => match c with
      | none => refuse
      | some c => if isWordPart c then boundaryName word
        else setRest st.rest >>= fun _ => pure (.boundary word)) st := by
  rw [boundaryWord, rest_bind, if_neg (by simp [h])]
  refine congrArg (fun f => (bump >>= f) st)
    (funext fun _ => congrArg (peek >>= ·) (funext fun c => ?_))
  cases c with
  | none => rfl
  | some c =>
    cases part : isWordPart c with
    | true =>
      have whole : ¬ (!isWordPart c) = true := by simp [part]
      exact (if_neg whole).trans (if_pos part).symm
    | false =>
      have none : (!isWordPart c) = true := by simp [part]
      exact (if_pos none).trans (if_neg (by simp [part])).symm

instance {word : Text.CodePoints} : Local k after (boundaryName word) := by
  unfold boundaryName
  simp only [refuse_bind]
  refine local_bind fun _ => local_peek (fun c => inferInstance) ?_
  rw [if_pos (by simp)]
  infer_instance

section Boundaries

variable {word : Text.CodePoints} {st st' : State} {l : Look}

/-- A boundary is followed by no brace, by one that no word is in, or by its word. -/
inductive BoundaryRead (word : Text.CodePoints) (st : State) : Look → State → Prop
  | plain (other : st.rest.head? ≠ some '\x7b') : BoundaryRead word st (.boundary word) st
  | wordless {mid : State} {c : Char} (brace : st.rest.head? = some '\x7b')
    (moved : bump st = some ((), mid)) (next : mid.rest.head? = some c)
    (other : isWordPart c = false) : BoundaryRead word st (.boundary word) st
  | named {mid : State} {c : Char} {l : Look} {st' : State}
    (brace : st.rest.head? = some '\x7b') (moved : bump st = some ((), mid))
    (next : mid.rest.head? = some c) (part : isWordPart c = true)
    (name : boundaryName word mid = some (l, st')) : BoundaryRead word st l st'

theorem boundaryWord_eq_some_iff :
    boundaryWord word st = some (l, st') ↔ BoundaryRead word st l st' := by
  have back {mid : State} (moved : bump st = some ((), mid)) : mid.left st.rest = st := by
    rw [bump_left moved]
    exact st.left_self
  by_cases brace : st.rest.head? = some '\x7b'
  · rw [boundaryWord_brace brace, bind_eq_some_iff]
    constructor
    · rintro ⟨⟨⟩, mid, moved, h⟩
      rw [peek_bind] at h
      cases next : mid.rest.head? with
      | none =>
        rw [next] at h
        cases h
      | some c =>
        rw [next] at h
        dsimp only at h
        split at h
        · rename_i part
          exact .named brace moved next part h
        · rename_i other
          obtain ⟨rfl, same⟩ := Prod.mk.inj (Option.some.inj h)
          have same : mid.left st.rest = st' := same
          rw [← same, back moved]
          exact .wordless brace moved next (Bool.eq_false_iff.2 other)
    · rintro (other | ⟨-, moved, next, other⟩ | ⟨-, moved, next, part, name⟩)
      · exact absurd brace other
      · refine ⟨(), _, moved, ?_⟩
        rw [peek_bind, next]
        dsimp only
        rw [if_neg (Bool.eq_false_iff.1 other)]
        exact congrArg (fun st => some (_, st)) (back moved)
      · refine ⟨(), _, moved, ?_⟩
        rw [peek_bind, next]
        dsimp only
        rw [if_pos part]
        exact name
  · rw [boundaryWord_other (by simpa using brace)]
    constructor
    · intro h
      obtain ⟨rfl, rfl⟩ := Prod.mk.inj (Option.some.inj h)
      exact .plain brace
    · rintro (- | ⟨found, -, -, -⟩ | ⟨found, -, -, -, -⟩)
      · rfl
      · exact absurd found brace
      · exact absurd found brace

theorem head?_close {c : Char} (h : c ≠ ')') (s : List Char) :
    (s ++ ')' :: after).head? = some c ↔ s.head? = some c := by
  cases s with
  | nil => simp [Ne.symm h]
  | cons d s => rfl

/-- The word of a boundary is looked for in braces and left alone if there is none, which differs at
the end. -/
theorem boundaryWord_within {s s' : List Char}
    (h : boundaryWord word (st.left (s ++ ')' :: after)) =
      some (l, st'.left (s' ++ ')' :: after))) :
    boundaryWord word (st.left s) = some (l, st'.left s') ∨
      Dangling after (st'.left (s' ++ ')' :: after)) := by
  have opened : (s ++ ')' :: after).head? = some '\x7b' ↔ s.head? = some '\x7b' :=
    head?_close (by decide) s
  rw [boundaryWord_eq_some_iff] at h ⊢
  generalize stop : st'.left (s' ++ ')' :: after) = last at h
  cases h with
  | plain other =>
    obtain ⟨same, others⟩ := State.left_eq_left_iff.1 stop
    left
    rw [State.left_eq_left_iff.2 ⟨append_cancel.1 same, others⟩]
    exact .plain (other ∘ opened.2)
  | wordless brace moved next other =>
    rcases inside_or (Shrinks.suffix _ _ _ moved) with ⟨d, s₁, at_⟩ | past
    · obtain ⟨same, others⟩ := State.left_eq_left_iff.1 stop
      left
      rw [State.left_eq_left_iff.2 ⟨append_cancel.1 same, others⟩]
      rw [State.eq_left at_] at moved next
      exact .wordless (opened.1 brace) (Local.within (k := 0) _ _ _ _ _ (Nat.zero_le _) moved)
        next other
    · right
      refine ⟨brace, fun mid' moved' => ?_⟩
      cases moved.symm.trans moved'
      exact past
  | named brace moved next part name =>
    subst stop
    rcases inside_or (Shrinks.suffix _ _ _ moved) with ⟨d, s₁, at_⟩ | past
    · left
      rw [State.eq_left at_] at moved next name
      exact .named (opened.1 brace) (Local.within (k := 0) _ _ _ _ _ (Nat.zero_le _) moved)
        next part (Local.within (k := 0) _ _ _ _ _ (Nat.zero_le _) name)
    · -- all of the end would be left, and the parenthesis is no part of a word
      have long := (List.suffix_append s' _).trans (Local.suffix 0 after _ _ _ name)
      rw [past.eq_of_length_le long.length_le] at next
      obtain rfl := Option.some.inj next
      exact absurd part (by decide)

instance : Shrinks (boundaryWord word) where
  suffix st l st' h := by
    cases boundaryWord_eq_some_iff.1 h with
    | plain => exact List.suffix_rfl
    | wordless => exact List.suffix_rfl
    | named _ moved _ _ name =>
      exact (Local.suffix 0 [] _ _ _ name).trans (Shrinks.suffix _ _ _ moved)

end Boundaries

instance : Drops escape := by
  have (letter : Char) : Shrinks (hexEscape letter) :=
    (inferInstance : Local 0 [] (hexEscape letter)).shrinks
  have (negated : Bool) : Shrinks (propertyEscape negated) :=
    (inferInstance : Local 0 [] (propertyEscape negated)).shrinks
  unfold escape
  dsimp only
  refine drops_bind fun _ => shrinks_get fun st => shrinks_peek fun c => ?_
  split <;> infer_instance

theorem escape_boundary (st : State) (c : Char) (s : List Char) :
    escape (st.left (c :: 'b' :: s)) =
      (boundaryWord (wordSet st.flags.unicode) >>= fun l => pure (.look l)) (st.left s) := rfl

/-- What is read behind a backslash differs at the end only for the brace behind a boundary. -/
theorem escape_within {st st' : State} {s s' : List Char} {a : Atom}
    (h : escape (st.left (s ++ ')' :: after)) = some (a, st'.left (s' ++ ')' :: after))) :
    escape (st.left s) = some (a, st'.left s') ∨
      (∃ l, a = .look l) ∧ Dangling after (st'.left (s' ++ ')' :: after)) := by
  rcases s with _ | ⟨c₀, _ | ⟨c, s⟩⟩
  · exact absurd (Passes.past _ _ _ h) not_past
  · obtain ⟨⟨⟩, mid, taken, h⟩ := bind_eq_some_iff.1 h
    cases taken
    refine absurd (@Passes.past after _ _ ?_ _ _ _ h) not_past
    refine passes_get fun st => passes_peek ?_
    change Passes after (take >>= fun _ => _)
    infer_instance
  · by_cases boundary : c = 'b'
    · subst boundary
      rw [List.cons_append, List.cons_append, escape_boundary] at h
      rw [escape_boundary]
      obtain ⟨l, mid, word, stop⟩ := bind_eq_some_iff.1 h
      obtain ⟨rfl, rfl⟩ := Prod.mk.inj (Option.some.inj stop)
      rcases boundaryWord_within word with same | dangling
      · exact Or.inl (bind_eq_some_iff.2 ⟨l, _, same, rfl⟩)
      · exact Or.inr ⟨⟨l, rfl⟩, dangling⟩
    · left
      obtain ⟨⟨⟩, mid, taken, h⟩ := bind_eq_some_iff.1 h
      cases taken
      refine bind_eq_some_iff.2 ⟨(), st.left (c :: s), rfl, ?_⟩
      rw [get_bind, peek_bind] at h ⊢
      refine @Local.within 0 after _ _ ?_ _ _ _ _ _ (Nat.zero_le _) h
      dsimp only [State.left_rest, List.cons_append, List.drop_succ_cons, List.drop_zero,
        List.head?_cons]
      split
      case h_13 same =>
        obtain rfl := Option.some.inj same
        have other : (c == 'b') = false := by simpa using boundary
        simp only [other, Bool.false_eq_true, if_false]
        infer_instance
      all_goals infer_instance

end Escapes

section Counts

def skipBlanks : PatternReader Unit := do
  setRest ((← rest).dropWhile Text.isBlank)

theorem skipBlanks_eq (st : State) :
    skipBlanks st = some ((), st.left (st.rest.dropWhile Text.isBlank)) := rfl

theorem skipBlanks_bind {f : Unit → PatternReader β} :
    (rest >>= fun s => setRest (s.dropWhile Text.isBlank) >>= f) = (skipBlanks >>= f) := rfl

instance : Shrinks skipBlanks where
  suffix st a st' h := by
    rw [skipBlanks_eq] at h
    cases h
    exact List.dropWhile_suffix _

instance : Local k after skipBlanks := by
  refine local_of_left (fun _ s => ((), s.dropWhile Text.isBlank)) skipBlanks_eq
    fun f s s' _ stop => ?_
  dsimp only at stop ⊢
  rw [dropWhile_append_close not_blank_close] at stop
  rw [append_cancel.1 stop]

instance : Local k after decimal := by
  unfold decimal
  simp only [refuse_bind, skipBlanks_bind]
  infer_instance

instance : Shrinks decimal :=
  (inferInstance : Local 0 [] decimal).shrinks

/-- There is no number at the end. -/
theorem decimal_close (st : State) : decimal (st.left (')' :: after)) = none := by
  unfold decimal
  simp only [refuse_bind, skipBlanks_bind]
  refine Option.eq_none_iff_forall_ne_some.2 fun both given => ?_
  obtain ⟨⟨⟩, mid, blank, given⟩ := bind_eq_some_iff.1 given
  rw [skipBlanks_eq, State.left_rest, List.dropWhile_cons_of_neg (by simp [not_blank_close])]
    at blank
  cases blank
  have close : Char.isDigit ')' = false := by decide
  obtain ⟨digits, mid, none, given⟩ := bind_eq_some_iff.1 given
  cases none.symm.trans (takeAll_close close st)
  obtain ⟨_, mid, -, given⟩ := bind_eq_some_iff.1 given
  rw [if_pos (by simp)] at given
  cases given

instance : Passes after decimal where
  past st n st' given := by
    rw [decimal_close] at given
    cases given

def closingBrace (min : Nat) (found : Nat × Option Nat) : PatternReader (Nat × Option Nat) := do
  if (← peek) != some '\x7d' || found.2.any (· < min) then refuse
  bump
  return found

/-- The second count behind the first one, which it is by default. -/
def upTo (min : Nat) : PatternReader (Nat × Option Nat) := do
  match ← peek with
  | some ',' =>
    bump
    match ← peek with
    | some '\x7d' => closingBrace min (min, none)
    | _ => closingBrace min (min, some (← decimal))
  | _ => closingBrace min (min, some min)

theorem counts_eq : counts = bump >>= fun _ => peek >>= fun c =>
    if c.isNone = true then refuse else decimal >>= upTo := by
  rfl

instance {min : Nat} {found : Nat × Option Nat} : Local k after (closingBrace min found) := by
  unfold closingBrace
  simp only [refuse_bind]
  refine local_peek (fun c => inferInstance) ?_
  rw [if_pos (by simp)]
  infer_instance

instance {min : Nat} {found : Nat × Option Nat} : Drops (closingBrace min found) := by
  unfold closingBrace
  simp only [refuse_bind]
  exact drops_peek fun c => inferInstance

instance {min : Nat} : Local k after (upTo min) := by
  unfold upTo
  refine local_peek_same (fun c => ?_) rfl
  split
  · refine local_bind fun _ => local_peek (fun c => ?_) ?_
    · split <;> infer_instance
    · exact passes_bind fun max => inferInstance
  · infer_instance

instance {min : Nat} : Drops (upTo min) := by
  unfold upTo
  refine drops_peek fun c => ?_
  split
  · refine drops_bind fun _ => shrinks_peek fun c => ?_
    split <;> infer_instance
  · infer_instance

instance : Local k after counts := by
  rw [counts_eq]
  refine local_bind fun _ => local_peek (fun c => inferInstance) ?_
  rw [if_neg (by simp)]
  infer_instance

instance : Drops counts := by
  rw [counts_eq]
  infer_instance

/-- Where nothing comes in the brace before the end, no counts end before it either. -/
theorem counts_dangling {st st' : State} {found : Nat × Option Nat} (h : Dangling after st)
    (given : counts st = some (found, st')) : st'.rest.length < after.length := by
  rw [counts_eq] at given
  obtain ⟨⟨⟩, mid, moved, given⟩ := bind_eq_some_iff.1 given
  rw [peek_bind] at given
  cases next : mid.rest.head? with
  | none =>
    rw [next] at given
    cases given
  | some c =>
    rw [next, if_neg (by simp)] at given
    have inside : Drops (decimal >>= upTo) := drops_after fun min => inferInstance
    have less := shorter next (inside.dropped _ _ _ given)
    rcases List.suffix_cons_iff.1 (h.2 mid moved) with all | past
    · rw [State.eq_left all] at given
      obtain ⟨min, _, first, -⟩ := bind_eq_some_iff.1 given
      rw [decimal_close] at first
      cases first
    · exact less.trans_le past.length_le

end Counts

end RecordViews.Pattern
