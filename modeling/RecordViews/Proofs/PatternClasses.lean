import RecordViews.Proofs.PatternEscapes

/-!
Classes in brackets at the end of a group. A class that is closed reads the same in front of the end
of a group as alone; what stands in it is followed by its closing bracket at least.
-/

namespace RecordViews.Pattern

open PatternReader

variable {k : Nat} {after : List Char} {α β : Type}

theorem bind_refuse {r : PatternReader α} :
    (r >>= fun _ => (refuse : PatternReader β)) = refuse := by
  funext st
  change (r st >>= fun both => none) = none
  cases r st <;> rfl

/-- With what the class holds so far: the signs behind its opening bracket. -/
def openingSigns (negated : Bool) : PatternReader ClassState := do
  let dashes ← takeAll (· == '-')
  let dash := Text.CodePoints.singleton '-'.toNat
  let c : ClassState := dashes.foldl (fun c _ => c.addSet dash) { negated }
  match ← peek with
  | none => refuse
  | some ']' =>
    if dashes.isEmpty then
      bump
      if (← peek).isNone then refuse
      return c.addSet (Text.CodePoints.singleton ']'.toNat)
    return c
  | some _ => return c

theorem openClass_eq : openClass = bump >>= fun _ => peek >>= fun c =>
    if (c == some '^') = true then bump >>= fun _ => openingSigns (c == some '^')
    else openingSigns (c == some '^') := rfl

instance {negated : Bool} : Local 1 after (openingSigns negated) := by
  unfold openingSigns
  simp only [refuse_bind]
  refine local_bind fun dashes => local_look fun c => ?_
  split
  · infer_instance
  · split
    · exact local_bind fun _ => local_look fun c => inferInstance
    · infer_instance
  · infer_instance

instance : Local 1 after openClass := by
  rw [openClass_eq]
  exact local_bind fun _ => local_look fun c => inferInstance

instance : Drops openClass := by
  have (negated : Bool) : Shrinks (openingSigns negated) :=
    (inferInstance : Local 1 [] (openingSigns negated)).shrinks
  rw [openClass_eq]
  infer_instance

theorem asciiClass?_of_mem {name : List Char} (h : ')' ∈ name) :
    asciiClass? (String.ofList name) = none := by
  have other (text : String) (without : ')' ∉ text.toList) :
      ¬ (String.ofList name == text) = true := by
    intro same
    rw [← eq_of_beq same, String.toList_ofList] at without
    exact without h
  unfold asciiClass?
  simp (disch := decide) only [if_neg (other _ _)]

/-- What follows the end of a named class, if that comes next. -/
def behindName? : List Char → Option (List Char)
  | ':' :: ']' :: rest => some rest
  | _ => none

theorem behindName?_close {s : List Char} (h : s ≠ []) :
    behindName? (s ++ ')' :: after) = (behindName? s).map (· ++ ')' :: after) := by
  rcases s with _ | ⟨c, _ | ⟨d, s⟩⟩
  · contradiction
  · by_cases colon : c = ':' <;> simp [behindName?, colon]
  · by_cases colon : c = ':' <;> by_cases closed : d = ']' <;> simp [behindName?, colon, closed]

def namedItem? (body : List Char) : Option (Text.CodePoints × List Char) :=
  (behindName? (body.drop (body.takeWhile (· != ':')).length)).bind fun rest =>
    (asciiClass? (String.ofList (body.takeWhile (· != ':')))).map (·, rest)

theorem namedItem?_close (body : List Char) :
    namedItem? (body ++ ')' :: after) =
      (namedItem? body).map fun both => (both.1, both.2 ++ ')' :: after) := by
  unfold namedItem?
  rcases takeWhile_close (p := (· != ':')) (by decide) body with
    ⟨short, more, name⟩ | ⟨c, rest, behind, name, behind'⟩
  · rw [short, name, asciiClass?_of_mem (by simp)]
    simp [behindName?]
  · rw [name, behind, behind', behindName?_close (List.cons_ne_nil c rest)]
    cases behindName? (c :: rest) with
    | none => rfl
    | some rest => cases asciiClass? (String.ofList (body.takeWhile (· != ':'))) <;> rfl

def asciiNext? : List Char → Option ((Text.CodePoints × Bool) × List Char)
  | '[' :: ':' :: s =>
    (namedItem? (if s.head? == some '^' then s.drop 1 else s)).map fun both =>
      ((both.1, s.head? == some '^'), both.2)
  | _ => none

theorem asciiNext?_close (s : List Char) :
    asciiNext? (s ++ ')' :: after) =
      (asciiNext? s).map fun both => (both.1, both.2 ++ ')' :: after) := by
  rcases s with _ | ⟨c, _ | ⟨d, s⟩⟩
  · rfl
  · by_cases opened : c = '[' <;> simp [asciiNext?, opened]
  · by_cases opened : c = '[' ∧ d = ':'
    · obtain ⟨rfl, rfl⟩ := opened
      have sign : ((s ++ ')' :: after).head? == some '^') = (s.head? == some '^') := by
        cases s <;> rfl
      have body : (if s.head? == some '^' then (s ++ ')' :: after).drop 1 else s ++ ')' :: after) =
          (if s.head? == some '^' then s.drop 1 else s) ++ ')' :: after := by
        cases s with
        | nil => rfl
        | cons e s => split <;> rfl
      simp only [List.cons_append, asciiNext?, sign, body, namedItem?_close, Option.map_map]
      rfl
    · have other (s : List Char) : asciiNext? (c :: d :: s) = none := by
        unfold asciiNext?
        split
        · simp_all
        · rfl
      rw [other, List.cons_append, List.cons_append, other]
      rfl

theorem asciiItem?_eq (st : State) : asciiItem? st =
    (asciiNext? st.rest).elim (some (none, st)) fun both => some (some both.1, st.left both.2) := by
  rw [asciiItem?, rest_bind]
  generalize st.rest = text
  fun_cases asciiNext? text with
  | case1 s =>
    simp only
    generalize (if s.head? == some '^' then s.drop 1 else s) = body
    unfold namedItem?
    generalize body.drop (body.takeWhile (· != ':')).length = behind
    fun_cases behindName? behind with
    | case1 rest =>
      dsimp only [Option.bind_some]
      cases asciiClass? (String.ofList (body.takeWhile (· != ':'))) <;> rfl
    | case2 _ other =>
      simp only
      rfl
  | case2 _ other =>
    simp only
    rfl

theorem asciiNext?_suffix {s rest : List Char} {found : Text.CodePoints × Bool}
    (h : asciiNext? s = some (found, rest)) : rest <:+ s.drop 1 := by
  unfold asciiNext? at h
  split at h
  · rename_i s
    obtain ⟨both, named, same⟩ := Option.map_eq_some_iff.1 h
    obtain ⟨rest', behind, set⟩ := Option.bind_eq_some_iff.1 named
    obtain ⟨found', -, rfl⟩ := Option.map_eq_some_iff.1 set
    have body : (if s.head? == some '^' then s.drop 1 else s) <:+ s := by
      split
      · exact List.drop_suffix _ _
      · exact List.suffix_rfl
    cases same
    unfold behindName? at behind
    split at behind
    · rename_i rest' text
      cases behind
      have inside := text ▸ List.drop_suffix _ (if s.head? == some '^' then s.drop 1 else s)
      exact (List.suffix_append [':', ']'] rest').trans
        (inside.trans (body.trans (List.suffix_cons ':' s)))
    · cases behind
  · cases h

instance : Shrinks asciiItem? where
  suffix st a st' h := by
    rw [asciiItem?_eq] at h
    cases next : asciiNext? st.rest with
    | none =>
      rw [next] at h
      cases h
      exact List.suffix_rfl
    | some both =>
      rw [next] at h
      cases h
      exact (asciiNext?_suffix next).trans (List.drop_suffix _ _)

instance : Local k after asciiItem? := by
  refine local_of_left (fun _ s => (asciiNext? s).elim (none, s) fun both => (some both.1, both.2))
    (fun st => ?_) fun _ s s' _ stop => ?_
  · rw [asciiItem?_eq]
    cases asciiNext? st.rest <;> rfl
  · rw [asciiNext?_close] at stop ⊢
    cases next : asciiNext? s with
    | none =>
      rw [next] at stop
      exact congrArg (none, ·) (append_cancel.1 stop)
    | some both =>
      rw [next] at stop
      exact congrArg (some both.1, ·) (append_cancel.1 stop)

/-- An atom for a class; a place is none. -/
def solid : Atom → PatternReader Atom
  | .look _ => refuse
  | a => return a

instance {a : Atom} : Blind (solid a) := by
  cases a <;> unfold solid <;> infer_instance

instance {flags : Flags} {a : Atom} : Blind (classPoint flags a) := by
  cases a <;> unfold classPoint <;> infer_instance

instance : Local k after (escape >>= solid) where
  suffix st a st' h := by
    obtain ⟨b, mid, first, second⟩ := bind_eq_some_iff.1 h
    rw [(Blind.stays second).1]
    exact (Drops.dropped _ _ _ first).trans (List.drop_suffix _ _)
  within st s a st' s' _ h := by
    obtain ⟨b, mid, first, second⟩ := bind_eq_some_iff.1 h
    obtain ⟨rfl, all⟩ := Blind.stays second
    rcases escape_within first with same | ⟨⟨l, rfl⟩, -⟩
    · exact bind_eq_some_iff.2 ⟨b, st'.left s', same, all _⟩
    · cases second

def solidAtom : PatternReader Atom :=
  classAtom >>= solid

instance : Drops solidAtom := by
  unfold solidAtom classAtom
  rw [bind_assoc]
  refine drops_peek fun c => ?_
  split <;> infer_instance

instance : Local k after solidAtom := by
  unfold solidAtom classAtom
  rw [bind_assoc]
  refine local_peek (fun c => ?_) ?_
  · split <;> infer_instance
  · change Passes after ((take >>= fun _ => _) >>= solid)
    infer_instance

theorem classAtom_bind {f : Atom → PatternReader β} (h : ∀ l, f (.look l) = refuse) :
    (classAtom >>= f) = (solidAtom >>= f) := by
  rw [solidAtom, bind_assoc]
  refine congrArg (classAtom >>= ·) (funext fun a => ?_)
  cases a with
  | look l => exact h l
  | _ => rfl

def rangeFrom (flags : Flags) (first : Atom) : PatternReader Text.CodePoints := do
  skip
  let s ← rest
  let next := glance flags s
  if s.isEmpty then refuse
  if s.head? != some '-' || next == some ']' || next == some '-' then
    match first with
    | .set set => return set
    | _ => return Text.CodePoints.singleton (← classPoint flags first)
  bump
  let last ← solidAtom
  let low ← classPoint flags first
  let high ← classPoint flags last
  if low ≤ high then return Text.CodePoints.ofRanges [(low, high)] else refuse

theorem classItem_eq (flags : Flags) : classItem flags = solidAtom >>= rangeFrom flags := by
  have last (low : Atom) : (classAtom >>= fun last => classPoint flags low >>= fun low =>
      classPoint flags last >>= fun high =>
        if low ≤ high then pure (Text.CodePoints.ofRanges [(low, high)]) else refuse) =
      (solidAtom >>= fun last => classPoint flags low >>= fun low =>
        classPoint flags last >>= fun high =>
          if low ≤ high then pure (Text.CodePoints.ofRanges [(low, high)]) else refuse) :=
    classAtom_bind fun l => bind_refuse
  unfold classItem
  simp only [refuse_bind, last]
  rw [classAtom_bind]
  · rfl
  · intro l
    simp only [classPoint, refuse_bind, bind_refuse, ite_self]

theorem head_close {x : Char} (h : x ≠ ')') (s : List Char) :
    ((s ++ ')' :: after).head? == some x) = (s.head? == some x) := by
  cases s with
  | nil => simpa using h.symm
  | cons c s => rfl

theorem glance_close {flags : Flags} {x : Char} (h : x ≠ ')') (c : Char) (s : List Char) :
    (glance flags (c :: s ++ ')' :: after) == some x) = (glance flags (c :: s) == some x) := by
  unfold glance
  simp only [List.cons_append, List.drop_succ_cons, List.drop_zero]
  split
  · exact head_close h s
  · rw [dropWhile_append_close not_blank_close]
    cases s.dropWhile Text.isBlank with
    | nil => simpa using h.symm
    | cons d rest =>
      by_cases comment : d = '#'
      · subst comment
        simp only [List.cons_append]
        rw [dropWhile_append_close not_blank_close]
        exact head_close h _
      · simp [comment]

instance {flags : Flags} {first : Atom} : Local 1 after (rangeFrom flags first) := by
  unfold rangeFrom
  simp only [refuse_bind]
  refine local_bind fun _ => local_rest (fun s => ?_) fun s long => ?_
  · have single : Blind (match first with
        | .set set => pure set
        | _ => classPoint flags first >>= fun n => pure (Text.CodePoints.singleton n)) := by
      split <;> infer_instance
    infer_instance
  · cases s with
    | nil => simp at long
    | cons c s =>
      rw [glance_close (by decide), glance_close (by decide)]
      rfl

instance {flags : Flags} : Local 1 after (classItem flags) := by
  rw [classItem_eq]
  infer_instance

instance {flags : Flags} : Drops (classItem flags) := by
  have (first : Atom) : Shrinks (rangeFrom flags first) :=
    (inferInstance : Local 1 [] (rangeFrom flags first)).shrinks
  rw [classItem_eq]
  infer_instance

def classOp? : List Char → Option ClassOp
  | '&' :: '&' :: _ => some .inter
  | '-' :: '-' :: _ => some .diff
  | '~' :: '~' :: _ => some .symmDiff
  | _ => none

theorem classOp?_none {c d : Char} {s : List Char} (inter : ¬ (c = '&' ∧ d = '&'))
    (diff : ¬ (c = '-' ∧ d = '-')) (both : ¬ (c = '~' ∧ d = '~')) :
    classOp? (c :: d :: s) = none := by
  unfold classOp?
  split <;> simp_all

theorem classOp?_close (s : List Char) : classOp? (s ++ ')' :: after) = classOp? s := by
  rcases s with _ | ⟨c, _ | ⟨d, s⟩⟩
  · rfl
  · simp [classOp?]
  · by_cases inter : c = '&' ∧ d = '&'
    · obtain ⟨rfl, rfl⟩ := inter
      rfl
    · by_cases diff : c = '-' ∧ d = '-'
      · obtain ⟨rfl, rfl⟩ := diff
        rfl
      · by_cases both : c = '~' ∧ d = '~'
        · obtain ⟨rfl, rfl⟩ := both
          rfl
        · rw [classOp?_none inter diff both]
          exact classOp?_none inter diff both

/-- One round of the loop over a class, with what is done after it. -/
def classRound (more : List ClassState → ClassState → PatternReader NestedSet)
    (outer : List ClassState) (c : ClassState) (flags : Flags) : PatternReader NestedSet := do
  match ← peek with
  | none => refuse
  | some '[' =>
    match ← asciiItem? with
    | some (set, negated) =>
      more outer (c.addSet (← checkAscii flags (foldAndNegate flags negated set)))
    | none => more (c :: outer) (← openClass)
  | some ']' =>
    take
    let inner := c.close flags
    let set ← checkAscii flags (foldAndNegate flags c.negated inner.set)
    match outer with
    | [] => return { set, depth := inner.depth + 1 }
    | parent :: above => more above (parent.add { set, depth := inner.depth + 1 })
  | some _ =>
    match classOp? (← rest) with
    | some op =>
      take
      take
      more outer (c.operate flags op)
    | none => more outer (c.addSet (← classItem flags))

theorem classFrom_succ (n : Nat) (outer : List ClassState) (c : ClassState) :
    classFrom (n + 1) outer c =
      skip >>= fun _ => get >>= fun st => classRound (classFrom n) outer c st.flags := by
  rw [classFrom]
  refine congrArg (skip >>= ·) (funext fun _ => congrArg (get >>= ·) (funext fun st => ?_))
  refine funext fun st' => ?_
  obtain ⟨st', s, rfl⟩ : ∃ st₀ s, st' = State.left st₀ s := ⟨st', st'.rest, rfl⟩
  rw [rest_bind, classRound, peek_bind, State.left_rest]
  cases s with
  | nil => rfl
  | cons d s =>
    by_cases opened : d = '['
    · subst opened
      rfl
    · by_cases closed : d = ']'
      · subst closed
        rfl
      · simp only [List.head?_cons]
        rw [rest_bind, State.left_rest]
        rcases s with _ | ⟨e, s⟩
        · exact congrFun (by split <;> simp_all [classOp?]) _
        · by_cases inter : d = '&' ∧ e = '&'
          · obtain ⟨rfl, rfl⟩ := inter
            rfl
          · by_cases diff : d = '-' ∧ e = '-'
            · obtain ⟨rfl, rfl⟩ := diff
              rfl
            · by_cases both : d = '~' ∧ e = '~'
              · obtain ⟨rfl, rfl⟩ := both
                rfl
              · rw [classOp?_none inter diff both]
                refine congrFun ?_ _
                split <;> simp_all

section Rounds

variable {more more' : List ClassState → ClassState → PatternReader NestedSet}
  {outer : List ClassState} {c : ClassState} {flags : Flags} {n m : Nat}

theorem shrinks_classRound (h : ∀ outer c, Shrinks (more outer c)) :
    Shrinks (classRound more outer c flags) := by
  unfold classRound
  refine shrinks_peek fun next => ?_
  split
  · infer_instance
  · refine shrinks_bind fun found => ?_
    split <;> infer_instance
  · refine shrinks_bind fun _ => shrinks_bind fun set => ?_
    split <;> infer_instance
  · refine shrinks_rest fun s => ?_
    split <;> infer_instance

theorem passes_classRound (h : ∀ outer c, Shrinks (more outer c)) :
    Passes after (classRound more outer c flags) where
  past st b st' given := by
    have item : Drops (classItem flags >>= fun set => more outer (c.addSet set)) := inferInstance
    exact item.dropped (st.left (')' :: after)) b st' given

theorem local_classRound (h : ∀ outer c, Local 0 after (more outer c))
    (close : ∀ outer c, Passes after (more outer c)) :
    Local 0 after (classRound more outer c flags) := by
  have shrinks (outer : List ClassState) (c : ClassState) := (h outer c).shrinks
  refine local_peek (fun next => ?_) ⟨(passes_classRound shrinks).past⟩
  split
  · infer_instance
  · refine local_bind fun found => ?_
    split
    · infer_instance
    · exact local_before (fun inner => h _ _) fun inner => close _ _
  · refine local_bind fun _ => local_bind fun set => ?_
    split <;> infer_instance
  · refine local_rest (fun s => ?_) fun s _ => ?_
    · split
      · infer_instance
      · exact local_before (fun set => h _ _) fun set => close _ _
    · rw [classOp?_close]

instance : Shrinks (classFrom n outer c) := by
  induction n generalizing outer c with
  | zero => exact inferInstanceAs (Shrinks refuse)
  | succ n ih =>
    rw [classFrom_succ]
    exact shrinks_bind fun _ => shrinks_get fun st => shrinks_classRound fun _ _ => ih

instance : Passes after (classFrom n outer c) := by
  cases n with
  | zero => exact inferInstanceAs (Passes after refuse)
  | succ n =>
    rw [classFrom_succ]
    exact passes_skip (passes_get fun st => passes_classRound inferInstance)

instance : Local 0 after (classFrom n outer c) := by
  induction n generalizing outer c with
  | zero => exact inferInstanceAs (Local 0 after refuse)
  | succ n ih =>
    rw [classFrom_succ]
    exact local_bind fun _ => local_get
      (fun st => local_classRound (fun _ _ => ih) inferInstance) fun _ _ => rfl

/-- Each round takes something. -/
theorem classRound_congr {st : State}
    (h : ∀ outer c mid, mid.rest.length < st.rest.length → more outer c mid = more' outer c mid) :
    classRound more outer c flags st = classRound more' outer c flags st := by
  rw [classRound, classRound, peek_bind, peek_bind]
  cases next : st.rest.head? with
  | none => rfl
  | some d =>
    by_cases opened : d = '['
    · subst opened
      refine bind_congr_at fun found mid item => ?_
      rw [asciiItem?_eq] at item
      cases named : asciiNext? st.rest with
      | none =>
        rw [named] at item
        cases item
        exact bind_congr_at fun inner mid first => h _ _ _ (Drops.shorter next first)
      | some both =>
        rw [named] at item
        cases item
        refine bind_congr_at fun set mid first => h _ _ _ ?_
        rw [(Blind.stays first).1]
        exact shorter next (asciiNext?_suffix named)
    · by_cases closed : d = ']'
      · subst closed
        refine bind_congr_at fun _ mid taken => bind_congr_at fun set mid' first => ?_
        obtain ⟨rfl, -⟩ := Blind.stays first
        cases outer with
        | nil => rfl
        | cons parent above => exact h _ _ _ (Drops.shorter next taken)
      · simp only
        rw [rest_bind, rest_bind]
        cases classOp? st.rest with
        | none => exact bind_congr_at fun set mid first => h _ _ _ (Drops.shorter next first)
        | some op =>
          refine bind_congr_at fun _ mid first => bind_congr_at fun _ mid' second => h _ _ _ ?_
          have := (Shrinks.suffix _ _ _ second).length_le
          have := Drops.shorter next first
          omega

/-- No more rounds are made than there are characters. -/
theorem classFrom_enough {st : State} (hn : st.rest.length < n) (hm : st.rest.length < m) :
    classFrom n outer c st = classFrom m outer c st := by
  induction n generalizing m outer c st with
  | zero => omega
  | succ n ih =>
    obtain ⟨m, rfl⟩ : ∃ m', m = m' + 1 := ⟨m - 1, by omega⟩
    rw [classFrom_succ, classFrom_succ]
    refine bind_congr_at fun _ mid moved => classRound_congr fun outer c mid' less => ?_
    have := (Shrinks.suffix _ _ _ moved).length_le
    exact ih (by omega) (by omega)

def bracketed : PatternReader NestedSet := do
  classFrom ((← rest).length + 1) [] (← openClass)

instance : Drops bracketed where
  dropped st b st' h := by
    have opened : Drops (openClass >>= classFrom (st.rest.length + 1) []) := inferInstance
    exact opened.dropped st b st' h

instance : Local 0 after bracketed where
  suffix st b st' h := (Drops.dropped _ _ _ h).trans (List.drop_suffix _ _)
  within st s b st' s' enough h := by
    have opened : Local 0 after (openClass >>= classFrom ((s ++ ')' :: after).length + 1) []) :=
      local_before inferInstance inferInstance
    have h := opened.within st s b st' s' enough h
    rw [← h]
    change (openClass >>= classFrom (s.length + 1) []) (st.left s) = _
    refine bind_congr_at fun c mid first => ?_
    have less : mid.rest.length ≤ s.length := (Shrinks.suffix _ _ _ first).length_le
    exact classFrom_enough (by omega) (by rw [List.length_append]; omega)

end Rounds

end RecordViews.Pattern
