import RecordViews.Proofs.PatternClasses

/-!
Expressions at the end of a group. One more piece is read in front of the end of a group as it is
read alone, and so are alternatives: those of a group in it, and those of the group itself, which
are then all of the text.
-/

namespace RecordViews.Pattern

open PatternReader

variable {k : Nat} {after : List Char} {α β : Type}

section Openings

theorem isPrefixOf_close {text : List Char} (h : ')' ∉ text) (s : List Char) :
    text.isPrefixOf (s ++ ')' :: after) = text.isPrefixOf s := by
  induction text generalizing s with
  | nil => simp
  | cons c text ih =>
    obtain ⟨other, rest⟩ := not_or.1 (List.mem_cons.not.1 h)
    cases s with
    | nil => simp [List.isPrefixOf, Ne.symm other]
    | cons d s => simp [List.isPrefixOf, ih rest]

def isGroupName : List Char → Bool
  | [] => false
  | c :: more => (c == '_' || Text.alphabetic.containsChar c) && more.all fun c =>
    c == '_' || c == '.' || c == '[' || c == ']' || Text.isAlphanumeric c

theorem isGroupName_of_mem {c : Char} {more : List Char} (h : ')' ∈ more) :
    isGroupName (c :: more) = false := by
  have close : Text.isAlphanumeric ')' = false := by decide
  refine Bool.and_eq_false_iff.2 (Or.inr (List.all_eq_false.2 ⟨')', h, ?_⟩))
  simp [close]

def nameAt? (s : List Char) : Option (List Char × List Char) :=
  match s.drop (s.takeWhile (· != '>')).length with
  | [] => none
  | _ :: rest =>
    if isGroupName (s.takeWhile (· != '>')) then some (s.takeWhile (· != '>'), rest) else none

def State.named (st : State) (name : List Char) : State :=
  { st with names := name :: st.names }

theorem groupName_eq (st : State) : groupName st = (nameAt? st.rest).bind fun both =>
    if st.names.contains both.1 = true then none
    else some ((), (st.named both.1).left both.2) := by
  rw [groupName, rest_bind]
  unfold nameAt?
  generalize st.rest.takeWhile (· != '>') = name
  cases name with
  | nil =>
    dsimp only
    cases st.rest.drop ([] : List Char).length <;> rfl
  | cons c more =>
    dsimp only
    cases st.rest.drop (c :: more).length with
    | nil => rfl
    | cons angle rest =>
      have good : isGroupName (c :: more) = ((c == '_' || Text.alphabetic.containsChar c) &&
        more.all fun c => c == '_' || c == '.' || c == '[' || c == ']' || Text.isAlphanumeric c) :=
        rfl
      simp only [refuse_bind, ← Bool.not_and, ← good]
      rw [get_bind]
      cases isGroupName (c :: more) with
      | false => rfl
      | true =>
        simp only [Option.bind_some, Bool.not_true, Bool.false_or, if_true]
        cases st.names.contains (c :: more) <;> rfl

theorem groupName_eq_some_iff {st st' : State} : groupName st = some ((), st') ↔
    ∃ name rest, nameAt? st.rest = some (name, rest) ∧ name ∉ st.names ∧
      (st.named name).left rest = st' := by
  rw [groupName_eq, Option.bind_eq_some_iff]
  simp

theorem nameAt?_suffix {s rest name : List Char} (h : nameAt? s = some (name, rest)) :
    rest <:+ s.drop 1 := by
  unfold nameAt? at h
  split at h
  · cases h
  · rename_i angle rest' behind
    split at h
    · rename_i good
      cases h
      obtain ⟨c, more, first⟩ : ∃ c more, s.takeWhile (· != '>') = c :: more := by
        cases first : s.takeWhile (· != '>') with
        | nil =>
          rw [first] at good
          cases good
        | cons c more => exact ⟨c, more, rfl⟩
      rw [first, List.length_cons, Nat.add_comm, ← List.drop_drop] at behind
      exact (behind ▸ List.suffix_cons angle rest).trans (List.drop_suffix _ _)
    · cases h

/-- A name that goes beyond the end has the parenthesis in it. -/
theorem nameAt?_close (c : Char) (s : List Char) : nameAt? (c :: s ++ ')' :: after) =
    (nameAt? (c :: s)).map fun both => (both.1, both.2 ++ ')' :: after) := by
  unfold nameAt?
  rcases takeWhile_close (p := (· != '>')) (by decide) (c :: s) with
    ⟨short, more, name⟩ | ⟨d, rest, behind, name, behind'⟩
  · rw [short, name, List.cons_append, isGroupName_of_mem (by simp)]
    simp only [Bool.false_eq_true, if_false]
    split <;> rfl
  · rw [name, behind, behind']
    cases isGroupName ((c :: s).takeWhile (· != '>')) <;> rfl

instance : Drops groupName where
  dropped st a st' h := by
    obtain ⟨name, rest, named, -, rfl⟩ := groupName_eq_some_iff.1 h
    exact nameAt?_suffix named

instance : Local k after groupName where
  suffix := Shrinks.suffix
  within st s a st' s' _ h := by
    cases s with
    | nil => exact absurd (Passes.past _ _ _ h) not_past
    | cons c s =>
      obtain ⟨name, rest, named, new, same⟩ := groupName_eq_some_iff.1 h
      rw [State.left_rest, nameAt?_close] at named
      obtain ⟨⟨name, rest⟩, found, both⟩ := Option.map_eq_some_iff.1 named
      cases both
      obtain ⟨stop, others⟩ := State.left_eq_left_iff.1 same
      exact groupName_eq_some_iff.2 ⟨name, rest, found, new,
        State.left_eq_left_iff.2 ⟨append_cancel.1 stop, others⟩⟩

theorem flagLetters_succ (n : Nat) (seen : List Char) (on : Bool) (f : Flags) :
    flagLetters (n + 1) seen on f = peek >>= fun next => match next with
      | none => refuse
      | some c =>
        if (c == ':' || c == ')') = true then
          if (seen.head? == some '-') = true then refuse else pure (f, !seen.isEmpty)
        else if seen.contains c = true then refuse
        else take >>= fun _ =>
          if (c == '-') = true then flagLetters n (c :: seen) false f
          else match f.set? c on with
            | some g => flagLetters n (c :: seen) on g
            | none => refuse := by
  funext st
  obtain ⟨st, s, rfl⟩ : ∃ st₀ s, st = State.left st₀ s := ⟨st, st.rest, rfl⟩
  rw [flagLetters, rest_bind, peek_bind, State.left_rest]
  cases s with
  | nil => rfl
  | cons c s =>
    dsimp only [List.head?_cons]
    split
    · rfl
    · split <;> rfl

section Letters

variable {n m : Nat} {seen : List Char} {on : Bool} {f : Flags}

instance : Local 1 after (flagLetters n seen on f) := by
  induction n generalizing seen on f with
  | zero => exact inferInstanceAs (Local 1 after refuse)
  | succ n ih =>
    rw [flagLetters_succ]
    refine local_look fun next => ?_
    cases next with
    | none => infer_instance
    | some c =>
      have letter : Local 1 after (match f.set? c on with
          | some g => flagLetters n (c :: seen) on g
          | none => refuse) := by
        split <;> infer_instance
      infer_instance

/-- No more letters are read than there are characters. -/
theorem flagLetters_enough {st : State} (hn : st.rest.length < n) (hm : st.rest.length < m) :
    flagLetters n seen on f st = flagLetters m seen on f st := by
  induction n generalizing m seen on f st with
  | zero => omega
  | succ n ih =>
    obtain ⟨m, rfl⟩ : ∃ m', m = m' + 1 := ⟨m - 1, by omega⟩
    rw [flagLetters_succ, flagLetters_succ, peek_bind, peek_bind]
    cases next : st.rest.head? with
    | none => rfl
    | some c =>
      dsimp only
      split
      · rfl
      · split
        · rfl
        · refine bind_congr_at fun _ mid taken => ?_
          have less := Drops.shorter next taken
          split
          · exact ih (by omega) (by omega)
          · cases f.set? c on with
            | none => rfl
            | some g => exact ih (by omega) (by omega)

def groupFlags (f : Flags) : PatternReader (Flags × Bool) := do
  flagLetters ((← rest).length + 1) [] true f

instance : Local 1 after (groupFlags f) where
  suffix st a st' h :=
    Local.suffix 1 [] (r := flagLetters (st.rest.length + 1) [] true f) st a st' h
  within st s a st' s' enough h := by
    have h := Local.within (r := flagLetters ((s ++ ')' :: after).length + 1) [] true f)
      _ _ _ _ _ enough h
    rw [flagLetters_enough (m := s.length + 1) (by rw [State.left_rest, List.length_append]; omega)
      (Nat.lt_succ_self _)] at h
    exact h

end Letters

/-- What a group opens with behind its parenthesis, if it has no name. -/
def unnamedGroup (f : Flags) : PatternReader Opening := do
  if ← eat "?" then
    let found ← groupFlags f
    let close ← peek
    take
    if close == some ')' then
      if found.2 then return .setFlags found.1 else refuse
    return .opened found.1 false
  return .opened f true

instance {f : Flags} : Local 0 after (unnamedGroup f) := by
  unfold unnamedGroup
  refine local_bind fun any => ?_
  have ending (found : Flags × Bool) : Local 0 after (peek >>= fun close => take >>= fun _ =>
      if (close == some ')') = true then
        if found.2 = true then pure (Opening.setFlags found.1) else refuse
      else pure (Opening.opened found.1 false)) := by
    refine local_peek (fun close => ?_) ?_
    · infer_instance
    · infer_instance
  split
  · refine local_before ending fun found => passes_peek ?_
    infer_instance
  · infer_instance

def looksAround (s : List Char) : Bool :=
  ["?=", "?!", "?<=", "?<!"].any fun t => t.toList.isPrefixOf s

theorem looksAround_close (s : List Char) : looksAround (s ++ ')' :: after) = looksAround s := by
  unfold looksAround
  simp (disch := decide) only [List.any_cons, isPrefixOf_close]
  rfl

theorem openGroup_eq : openGroup = bump >>= fun _ => get >>= fun st => rest >>= fun s =>
    if looksAround s = true then refuse
    else eat "?P<" >>= fun named =>
      if named = true then groupName >>= fun _ => pure (.opened st.flags true)
      else eat "?<" >>= fun named =>
        if named = true then groupName >>= fun _ => pure (.opened st.flags true)
        else unnamedGroup st.flags := by
  unfold openGroup unnamedGroup groupFlags
  simp only [refuse_bind, pure_bind, if_true, bind_assoc]
  rfl

instance : Local 0 after openGroup := by
  rw [openGroup_eq]
  refine local_bind fun _ => local_get (fun st => local_rest (fun s => ?_) fun s _ => ?_)
    fun _ _ => rfl
  · infer_instance
  · rw [looksAround_close]

instance : Drops openGroup := by
  have (f : Flags) : Shrinks (unnamedGroup f) :=
    (inferInstance : Local 0 [] (unnamedGroup f)).shrinks
  rw [openGroup_eq]
  refine drops_bind fun _ => shrinks_get fun st => shrinks_rest fun s => ?_
  infer_instance

end Openings

section Pieces

variable {inner inner' : PatternReader Part} {flags : Flags} {pieces : List Piece}
  {min : Nat} {max : Option Nat} {c : Char}

def setFlags (f : Flags) : PatternReader Unit :=
  modify fun st => { st with flags := f }

/-- A group from its opening parenthesis on, or the flags it sets. -/
def grouped (inner : PatternReader Part) (flags : Flags) (pieces : List Piece) :
    PatternReader (List Piece) := do
  match ← openGroup with
  | .setFlags f =>
    setFlags f
    return .flags :: pieces
  | .opened f captures =>
    setFlags f
    let part ← inner
    setFlags flags
    let node := if captures then .group part.node else part.node
    return .part { node, depth := part.depth + 1 } :: pieces

def repeating (pieces : List Piece) (min : Nat) (max : Option Nat) : PatternReader (List Piece) :=
  match pieces with
  | .part p :: before =>
    return .part { node := Node.ofRepetition min max p.node, depth := p.depth + 1 } :: before
  | _ => refuse

def oneMore (inner : PatternReader Part) (flags : Flags) (pieces : List Piece) (c : Char) :
    PatternReader (List Piece) := do
  let next (node : Node) (depth : Nat) : List Piece := .part { node, depth } :: pieces
  match c with
  | '(' => grouped inner flags pieces
  | '[' =>
    let part ← bracketed
    return next (.chars part.set) part.depth
  | '?' =>
    take
    lazyMark
    repeating pieces 0 (some 1)
  | '*' =>
    take
    lazyMark
    repeating pieces 0 none
  | '+' =>
    take
    lazyMark
    repeating pieces 1 none
  | '\x7b' =>
    if pieces.isEmpty then refuse
    let found ← counts
    lazyMark
    repeating pieces found.1 found.2
  | '.' =>
    take
    return next (← atomNode flags .dot) 0
  | '^' =>
    take
    return next (.look (lineStart flags)) 0
  | '$' =>
    take
    return next (.look (lineEnd flags)) 0
  | '\\' => return next (← atomNode flags (← escape)) 0
  | c =>
    take
    return next (← atomNode flags (.char c false)) 0

theorem repeating_bind {f : List Piece → PatternReader β} :
    (repeating pieces min max >>= f) = match pieces with
      | .part p :: before =>
        f (.part { node := Node.ofRepetition min max p.node, depth := p.depth + 1 } :: before)
      | _ => refuse := by
  unfold repeating
  split <;> rfl

theorem alternatives_succ (inGroup : Bool) (n : Nat) (done : List Part) (pieces : List Piece) :
    alternatives inGroup (n + 1) done pieces =
      skip >>= fun _ => get >>= fun st => peek >>= fun next => match next with
      | none => if inGroup = true then refuse else pure (alternativesOf done pieces)
      | some ')' =>
        if (!inGroup) = true then refuse else take >>= fun _ => pure (alternativesOf done pieces)
      | some '|' => take >>= fun _ => alternatives inGroup n (sequenceOf pieces :: done) []
      | some c =>
        oneMore (alternatives true n [] []) st.flags pieces c >>= alternatives inGroup n done := by
  rw [alternatives]
  refine congrArg (skip >>= ·) (funext fun _ => congrArg (get >>= ·) (funext fun st =>
    congrArg (peek >>= ·) (funext fun next => ?_)))
  have repeated (min : Nat) (max : Option Nat) : (take >>= fun _ => lazyMark >>= fun _ =>
      match pieces with
        | .part p :: before => alternatives inGroup n done
          (.part { node := Node.ofRepetition min max p.node, depth := p.depth + 1 } :: before)
        | _ => refuse) = (take >>= fun _ => lazyMark >>= fun _ => repeating pieces min max) >>=
          alternatives inGroup n done := by
    simp only [bind_assoc, repeating_bind]
  split
  case h_4 =>
    change _ = grouped (alternatives true n [] []) st.flags pieces >>= alternatives inGroup n done
    rw [grouped, bind_assoc]
    refine congrArg (openGroup >>= ·) (funext fun opening => ?_)
    cases opening <;> simp only [bind_assoc, pure_bind] <;> rfl
  case h_5 =>
    change _ = (bracketed >>= fun part => pure _) >>= alternatives inGroup n done
    simp only [bracketed, bind_assoc, pure_bind]
  case h_6 => exact repeated 0 (some 1)
  case h_7 => exact repeated 0 none
  case h_8 => exact repeated 1 none
  case h_9 =>
    cases pieces with
    | nil => rfl
    | cons piece before =>
      change _ = (counts >>= fun found => lazyMark >>= fun _ =>
        repeating (piece :: before) found.1 found.2) >>= alternatives inGroup n done
      simp only [bind_assoc, repeating_bind]
      rfl
  case h_14 c _ _ _ _ _ _ _ _ _ _ _ _ =>
    simp only [oneMore, bind_assoc, pure_bind]
  case h_10 =>
    change _ = (take >>= fun _ => atomNode st.flags .dot >>= fun node => pure _) >>= _
    simp only [bind_assoc, pure_bind]
  case h_11 =>
    change _ = (take >>= fun _ => pure _) >>= _
    simp only [bind_assoc, pure_bind]
  case h_12 =>
    change _ = (take >>= fun _ => pure _) >>= _
    simp only [bind_assoc, pure_bind]
  case h_13 =>
    change _ = (escape >>= fun a => atomNode st.flags a >>= fun node => pure _) >>= _
    simp only [bind_assoc, pure_bind]
  all_goals rfl

instance {f : Flags} : Local k after (setFlags f) where
  suffix st a st' h := by
    cases h
    exact List.suffix_rfl
  within st s a st' s' _ h := by
    obtain ⟨rfl, same⟩ := Prod.mk.inj (Option.some.inj h)
    have same : ({ st with flags := f } : State).left (s ++ ')' :: after) = st'.left _ := same
    obtain ⟨stop, others⟩ := State.left_eq_left_iff.1 same
    exact congrArg (fun st => some ((), st))
      (State.left_eq_left_iff.2 ⟨append_cancel.1 stop, others⟩)

instance {f : Flags} : Shrinks (setFlags f) :=
  (inferInstance : Local 0 [] (setFlags f)).shrinks

instance : Blind (repeating pieces min max) := by
  unfold repeating
  split <;> infer_instance

instance [Shrinks inner] : Drops (grouped inner flags pieces) := by
  unfold grouped
  refine drops_bind fun opening => ?_
  cases opening <;> infer_instance

instance [Shrinks inner] : Drops (oneMore inner flags pieces c) := by
  unfold oneMore
  simp only [refuse_bind]
  split <;> infer_instance

instance [Local 0 after inner] : Local 0 after (grouped inner flags pieces) := by
  unfold grouped
  refine local_bind fun opening => ?_
  cases opening <;> infer_instance

theorem local_oneMore [Local 0 after inner] (h : c ≠ '\\') :
    Local 0 after (oneMore inner flags pieces c) := by
  unfold oneMore
  simp only [refuse_bind]
  split
  case h_10 => contradiction
  all_goals infer_instance

/-- One more piece is read the same without the end of the group, or what is left is a brace that
nothing closes. -/
theorem oneMore_within [Local 0 after inner] {st st' : State} {s s' : List Char}
    {pieces' : List Piece} (h : oneMore inner flags pieces c (st.left (s ++ ')' :: after)) =
      some (pieces', st'.left (s' ++ ')' :: after))) :
    oneMore inner flags pieces c (st.left s) = some (pieces', st'.left s') ∨
      Dangling after (st'.left (s' ++ ')' :: after)) := by
  by_cases escaped : c = '\\'
  · subst escaped
    obtain ⟨a, mid, first, second⟩ := bind_eq_some_iff.1 h
    have blind : Blind (atomNode flags a >>= fun node =>
      (pure (.part { node, depth := 0 } :: pieces) : PatternReader (List Piece))) := inferInstance
    obtain ⟨rfl, all⟩ := Blind.stays second
    rcases escape_within first with same | ⟨-, dangling⟩
    · exact Or.inl (bind_eq_some_iff.2 ⟨a, _, same, all _⟩)
    · exact Or.inr dangling
  · exact Or.inl ((local_oneMore escaped).within _ _ _ _ _ (Nat.zero_le _) h)

/-- The inside of a group stands behind its opening. -/
theorem oneMore_congr {st : State} (next : st.rest.head? = some c)
    (h : ∀ mid, mid.rest.length < st.rest.length → inner mid = inner' mid) :
    oneMore inner flags pieces c st = oneMore inner' flags pieces c st := by
  by_cases group : c = '('
  · subst group
    refine bind_congr_at fun opening mid first => ?_
    cases opening with
    | setFlags f => rfl
    | opened f captures =>
      have less := Drops.shorter next first
      refine bind_congr_at fun _ mid' set => ?_
      cases set
      exact bind_congr_left (h _ less)
  · unfold oneMore
    split
    · contradiction
    all_goals rfl

end Pieces

section Alternatives

variable {inGroup : Bool} {n m : Nat} {done : List Part} {pieces : List Piece}
  {st st' : State} {part : Part}

/-- What alternatives come upon where neither blanks nor comments are left to skip. -/
inductive Turn (inGroup : Bool) (n : Nat) (done : List Part) (pieces : List Piece) (st : State) :
    Part → State → Prop
  | atEnd (at_ : st.rest = []) (alone : inGroup = false) :
    Turn inGroup n done pieces st (alternativesOf done pieces) st
  | close {s : List Char} (at_ : st.rest = ')' :: s) (inside : inGroup = true) :
    Turn inGroup n done pieces st (alternativesOf done pieces) (st.left s)
  | bar {s : List Char} {part : Part} {st' : State} (at_ : st.rest = '|' :: s)
    (others : alternatives inGroup n (sequenceOf pieces :: done) [] (st.left s) =
      some (part, st')) :
    Turn inGroup n done pieces st part st'
  | piece {c : Char} {s : List Char} {pieces' : List Piece} {mid : State} {part : Part}
    {st' : State} (at_ : st.rest = c :: s) (close : c ≠ ')') (bar : c ≠ '|')
    (first : oneMore (alternatives true n [] []) st.flags pieces c st = some (pieces', mid))
    (others : alternatives inGroup n done pieces' mid = some (part, st')) :
    Turn inGroup n done pieces st part st'

theorem alternatives_eq_some_iff :
    alternatives inGroup (n + 1) done pieces st = some (part, st') ↔
      ∃ mid, skip st = some ((), mid) ∧ Turn inGroup n done pieces mid part st' := by
  rw [alternatives_succ, bind_eq_some_iff]
  constructor
  · rintro ⟨⟨⟩, mid, skipped, h⟩
    refine ⟨mid, skipped, ?_⟩
    rw [get_bind, peek_bind] at h
    cases at_ : mid.rest with
    | nil =>
      rw [at_] at h
      cases inGroup with
      | true => cases h
      | false =>
        obtain ⟨rfl, rfl⟩ := Prod.mk.inj (Option.some.inj h)
        exact .atEnd at_ rfl
    | cons c s =>
      rw [at_, List.head?_cons] at h
      by_cases close : c = ')'
      · subst close
        cases inGroup with
        | false => cases h
        | true =>
          obtain ⟨⟨⟩, _, taken, h⟩ := bind_eq_some_iff.1 h
          cases (take_cons at_).symm.trans taken
          obtain ⟨rfl, rfl⟩ := Prod.mk.inj (Option.some.inj h)
          exact .close at_ rfl
      · by_cases bar : c = '|'
        · subst bar
          obtain ⟨⟨⟩, _, taken, h⟩ := bind_eq_some_iff.1 h
          cases (take_cons at_).symm.trans taken
          exact .bar at_ h
        · simp only at h
          obtain ⟨pieces', mid', first, others⟩ := bind_eq_some_iff.1 h
          exact .piece at_ close bar first others
  · rintro ⟨mid, skipped, turn⟩
    refine ⟨(), mid, skipped, ?_⟩
    rw [get_bind, peek_bind]
    cases turn with
    | atEnd at_ alone =>
      rw [at_, alone]
      rfl
    | close at_ inside =>
      rw [at_, inside]
      exact bind_eq_some_iff.2 ⟨(), _, take_cons at_, rfl⟩
    | bar at_ others =>
      rw [at_]
      exact bind_eq_some_iff.2 ⟨(), _, take_cons at_, others⟩
    | piece at_ close bar first others =>
      rw [at_, List.head?_cons]
      simp only
      exact bind_eq_some_iff.2 ⟨_, _, first, others⟩

instance : Shrinks (alternatives inGroup n done pieces) := by
  induction n generalizing inGroup done pieces with
  | zero => exact inferInstanceAs (Shrinks refuse)
  | succ n ih =>
    rw [alternatives_succ]
    refine shrinks_bind fun _ => shrinks_get fun st => shrinks_peek fun next => ?_
    split <;> infer_instance

/-- No more pieces are read than there are characters. -/
theorem alternatives_enough {st : State} (hn : st.rest.length < n) (hm : st.rest.length < m) :
    alternatives inGroup n done pieces st = alternatives inGroup m done pieces st := by
  induction n generalizing inGroup m done pieces st with
  | zero => omega
  | succ n ih =>
    obtain ⟨m, rfl⟩ : ∃ m', m = m' + 1 := ⟨m - 1, by omega⟩
    rw [alternatives_succ, alternatives_succ]
    refine bind_congr_at fun _ mid skipped => ?_
    have fewer := (Shrinks.suffix _ _ _ skipped).length_le
    rw [get_bind, get_bind, peek_bind, peek_bind]
    cases next : mid.rest.head? with
    | none => rfl
    | some c =>
      by_cases close : c = ')'
      · subst close
        rfl
      · by_cases bar : c = '|'
        · subst bar
          refine bind_congr_at fun _ mid' taken => ?_
          have less := Drops.shorter next taken
          exact ih (by omega) (by omega)
        · simp only
          refine (bind_congr_at fun pieces' mid' first => ?_).trans (bind_congr_left
            (oneMore_congr next fun mid' less => ih (by omega) (by omega)))
          have less := Drops.shorter next first
          exact ih (by omega) (by omega)

/-- A brace that nothing closes before the end is not read before it. -/
theorem alternatives_dangling (h : Dangling after st)
    (given : alternatives inGroup n done pieces st = some (part, st')) :
    st'.rest.length < after.length := by
  cases n with
  | zero => cases given
  | succ n =>
    obtain ⟨mid, skipped, turn⟩ := alternatives_eq_some_iff.1 given
    rw [skip_brace h.1] at skipped
    cases skipped
    have brace {c : Char} {s : List Char} (at_ : st.rest = c :: s) : c = '\x7b' :=
      Option.some.inj ((congrArg List.head? at_).symm.trans h.1)
    cases turn with
    | atEnd at_ _ => cases (congrArg List.head? at_).symm.trans h.1
    | close at_ _ => cases brace at_
    | bar at_ _ => cases brace at_
    | piece at_ _ _ first others =>
      cases brace at_
      refine lt_of_le_of_lt (Shrinks.suffix _ _ _ others).length_le ?_
      change (if pieces.isEmpty = true then _ else counts >>= _) st = _ at first
      split at first
      · cases first
      · obtain ⟨found, mid', counted, first⟩ := bind_eq_some_iff.1 first
        have repeated : Shrinks (lazyMark >>= fun _ => repeating pieces found.1 found.2) :=
          inferInstance
        exact lt_of_le_of_lt (repeated.suffix _ _ _ first).length_le (counts_dangling h counted)

/-- Where a text stops if what follows the end of a group is cut off: before the end, or at it. -/
inductive Meets (after : List Char) : Bool → List Char → List Char → Prop
  | inside (s : List Char) : Meets after true (s ++ ')' :: after) s
  | atEnd : Meets after false after []

theorem Meets.suffix {u r : List Char} (meets : Meets after inGroup u r) : after <:+ u := by
  cases meets with
  | inside => exact (List.suffix_cons ')' after).trans (List.suffix_append r _)
  | atEnd => exact List.suffix_rfl

/-- The text ends with a parenthesis in it, or with that of the group. -/
theorem Meets.last {u r s : List Char} (meets : Meets after inGroup u r)
    (whole : ')' :: u = s ++ ')' :: after) :
    s = ')' :: r ∧ inGroup = true ∨ s = [] ∧ inGroup = false ∧ r = [] := by
  cases s with
  | nil =>
    cases meets with
    | inside => exact absurd (List.cons.inj whole).2.symm (ne_append List.suffix_rfl)
    | atEnd => exact Or.inr ⟨rfl, rfl, rfl⟩
  | cons d s =>
    obtain ⟨rfl, behind⟩ := List.cons.inj whole
    cases meets with
    | inside =>
      obtain rfl := append_cancel.1 behind
      exact Or.inl ⟨rfl, rfl⟩
    | atEnd => exact absurd behind (ne_append List.suffix_rfl)

/-- The last thing that a group takes is the parenthesis that ends it. -/
theorem alternatives_closed (h : alternatives true n done pieces st = some (part, st')) :
    ')' :: st'.rest <:+ st.rest := by
  induction n generalizing done pieces st with
  | zero => cases h
  | succ n ih =>
    obtain ⟨mid, skipped, turn⟩ := alternatives_eq_some_iff.1 h
    refine List.IsSuffix.trans ?_ (Shrinks.suffix _ _ _ skipped)
    cases turn with
    | atEnd _ alone => cases alone
    | close at_ _ =>
      rw [at_]
      exact List.suffix_rfl
    | bar at_ others =>
      rw [at_]
      exact (ih others).trans (List.suffix_cons _ _)
    | piece _ _ _ first others => exact (ih others).trans (Shrinks.suffix _ _ _ first)

/-- What a group ends behind goes back to the end of the group at least. -/
theorem exists_closed {l s u : List Char} (sub : l <:+ s ++ ')' :: after) (long : after <:+ u)
    (closed : ')' :: u <:+ l) : ∃ s₁, l = s₁ ++ ')' :: after := by
  have whole : ')' :: after <:+ l := by
    refine List.suffix_of_suffix_length_le (List.suffix_append s (')' :: after)) sub ?_
    exact (Nat.succ_le_succ long.length_le).trans closed.length_le
  obtain ⟨s₁, rfl⟩ := whole
  exact ⟨s₁, rfl⟩

/-- The induction is on the fuel. What is left after each piece goes back to the end of the group,
since the group has still to take its parenthesis. -/
theorem alternatives_within {s u r : List Char}
    (h : alternatives true n done pieces (st.left (s ++ ')' :: after)) = some (part, st'.left u))
    (meets : Meets after inGroup u r) :
    alternatives inGroup n done pieces (st.left s) = some (part, st'.left r) := by
  induction n generalizing inGroup done pieces st st' s u r part with
  | zero => cases h
  | succ n ih =>
    have inner : Local 0 after (alternatives true n [] []) :=
      ⟨Shrinks.suffix, fun st s part st' s' _ given => ih given (.inside s')⟩
    obtain ⟨mid, skipped, turn⟩ := alternatives_eq_some_iff.1 h
    have sub : mid.rest <:+ s ++ ')' :: after := Shrinks.suffix _ _ _ skipped
    -- it is enough to take the turn without what follows the end of the group
    have turned {s₁ : List Char} (at_ : mid.rest = s₁ ++ ')' :: after)
        (turn : Turn inGroup n done pieces (mid.left s₁) part (st'.left r)) :
        alternatives inGroup (n + 1) done pieces (st.left s) = some (part, st'.left r) := by
      rw [State.eq_left at_] at skipped
      exact alternatives_eq_some_iff.2
        ⟨_, Local.within (k := 0) _ _ _ _ _ (Nat.zero_le _) skipped, turn⟩
    generalize stop : st'.left u = last at turn
    cases turn with
    | atEnd _ alone => cases alone
    | close at_ _ =>
      obtain ⟨same, others⟩ := State.left_eq_left_iff.1 stop
      rw [← same] at at_
      obtain ⟨s₁, whole⟩ := exists_closed sub meets.suffix (at_ ▸ List.suffix_rfl)
      refine turned whole ?_
      rcases meets.last (at_.symm.trans whole) with ⟨rfl, rfl⟩ | ⟨rfl, rfl, rfl⟩
      · rw [State.left_eq_left_iff.2 ⟨rfl, others⟩]
        exact .close rfl rfl
      · rw [State.left_eq_left_iff.2 ⟨rfl, others⟩]
        exact .atEnd rfl rfl
    | bar at_ others =>
      subst stop
      obtain ⟨s₁, at'⟩ := exists_closed ((at_ ▸ List.suffix_cons _ _ : _ <:+ mid.rest).trans sub)
        meets.suffix (alternatives_closed others)
      rw [State.left_rest] at at'
      subst at'
      have whole : mid.rest = ('|' :: s₁) ++ ')' :: after := at_
      exact turned whole (.bar rfl (ih others meets))
    | piece at_ close bar first others =>
      subst stop
      obtain ⟨s₂, at'⟩ := exists_closed ((Shrinks.suffix _ _ _ first).trans sub) meets.suffix
        (alternatives_closed others)
      obtain ⟨s₁, whole, -⟩ : ∃ s₁, mid.rest = s₁ ++ ')' :: after ∧ s₂.length ≤ s₁.length :=
        exists_left sub (at' ▸ Shrinks.suffix _ _ _ first)
      rw [State.eq_left whole, State.eq_left at'] at first
      rw [State.eq_left at'] at others
      rcases oneMore_within first with same | dangling
      · refine turned whole ?_
        rw [whole] at at_
        cases s₁ with
        | nil => exact absurd (List.cons.inj at_).1.symm close
        | cons d s₁ =>
          obtain ⟨rfl, -⟩ := List.cons.inj at_
          exact .piece rfl close bar same (ih others meets)
      · have less : u.length < after.length := alternatives_dangling dangling others
        exact absurd meets.suffix.length_le (by omega)

/-- A text that ends the group around it does not stand alone. -/
theorem not_alone {st₁ st₂ : State} {part₁ part₂ : Part}
    (ends : alternatives true n done pieces st = some (part₁, st₁)) :
    alternatives false n done pieces st ≠ some (part₂, st₂) := by
  intro alone
  induction n generalizing done pieces st with
  | zero => cases ends
  | succ n ih =>
    obtain ⟨mid, skipped, ends⟩ := alternatives_eq_some_iff.1 ends
    obtain ⟨_, skipped', alone⟩ := alternatives_eq_some_iff.1 alone
    cases skipped.symm.trans skipped'
    cases ends with
    | atEnd _ inside => cases inside
    | close at_ _ =>
      cases alone with
      | atEnd none _ => cases at_.symm.trans none
      | close _ inside => cases inside
      | bar at' _ => cases at_.symm.trans at'
      | piece at' close _ _ _ => exact close (List.cons.inj (at'.symm.trans at_)).1
    | bar at_ ends =>
      cases alone with
      | atEnd none _ => cases at_.symm.trans none
      | close _ inside => cases inside
      | bar at' alone =>
        cases at_.symm.trans at'
        exact ih ends alone
      | piece at' _ bar _ _ => exact bar (List.cons.inj (at'.symm.trans at_)).1
    | piece at_ close bar first ends =>
      cases alone with
      | atEnd none _ => cases at_.symm.trans none
      | close _ inside => cases inside
      | bar at' _ => exact bar (List.cons.inj (at_.symm.trans at')).1
      | piece at' _ _ first' alone =>
        cases at_.symm.trans at'
        cases first.symm.trans first'
        exact ih ends alone

end Alternatives

end RecordViews.Pattern
