import RecordViews.Proofs.PatternGroups
import RecordViews.Proofs.MemberMerge

/-!
Member patterns against whole names. A pattern is read between marks that are put around its text,
inside a group. Unless the text ends that group, it is an expression by itself, and the pattern
matches the names that the expression matches from start to end.
-/

namespace RecordViews

namespace Pattern

open PatternReader

def Node.ofExpression (text : String) : Except Fault Node :=
  match readPart? text with
  | none => .error .malformed
  | some part =>
    if part.depth > depthLimit then .error .malformed
    else if part.node.size > sizeLimit then .error .tooLarge
    else .ok part.node.simplify

theorem Node.ofExpression_eq_ok_iff {text : String} {r : Node} : Node.ofExpression text = .ok r ↔
    ∃ part, readPart? text = some part ∧ part.depth ≤ depthLimit ∧ part.node.size ≤ sizeLimit ∧
      part.node.simplify = r := by
  unfold Node.ofExpression
  cases readPart? text with
  | none => simp
  | some part =>
    dsimp only
    split
    · rename_i deep
      simp
      omega
    · split
      · rename_i large
        simp
        omega
      · rename_i shallow small
        constructor
        · intro h
          exact ⟨part, rfl, by omega, by omega, Except.ok.inj h⟩
        · rintro ⟨_, same, -, -, rfl⟩
          rw [Option.some.inj same]

def Node.MatchesWhole (r : Node) (text : String) : Prop :=
  text.toList.length ∈ r.reach text.toList.toArray [0]

def ClosesGroup (p : String) : Prop :=
  (alternatives true (2 * p.toList.length + 2) [] [] { rest := p.toList }).isSome

instance (p : String) : Decidable (ClosesGroup p) :=
  inferInstanceAs (Decidable (_ = true))

section Reading

variable {p : String} {part : Part}

theorem wholeText_toList (p : String) :
    (wholeText p).toList = '^' :: '(' :: '?' :: ':' :: (p.toList ++ [')', '$']) := by
  simp [wholeText]

theorem openGroup_unnamed (s : List Char) : openGroup { rest := '(' :: '?' :: ':' :: s } =
    some (.opened {} false, { rest := s }) := by
  rfl

variable {inGroup : Bool} {n : Nat} {done : List Part} {pieces : List Piece} {c : Char} {st : State}

/-- Where neither blanks nor comments are skipped, a piece is read at once. -/
theorem alternatives_piece (plain : st.flags.spaced = false) (next : st.rest.head? = some c)
    (close : c ≠ ')') (bar : c ≠ '|') : alternatives inGroup (n + 1) done pieces st =
      (oneMore (alternatives true n [] []) st.flags pieces c >>=
        alternatives inGroup n done) st := by
  rw [alternatives_succ, bind_at (skip_plain plain), get_bind, peek_bind, next]
  simp only

theorem alternatives_end (plain : st.flags.spaced = false) (next : st.rest.head? = none) :
    alternatives false (n + 1) done pieces st = some (alternativesOf done pieces, st) := by
  rw [alternatives_succ, bind_at (skip_plain plain), get_bind, peek_bind, next]
  rfl

def wholePieces (inner : Part) : List Piece :=
  [.part { node := inner.node, depth := inner.depth + 1 }, .part { node := .look .textStart }]

theorem readPart?_whole (h : readPart? (wholeText p) = some part) : ∃ inner st st',
    alternatives true (2 * p.toList.length + 12) [] [] { rest := p.toList ++ [')', '$'] } =
      some (inner, st) ∧
    alternatives false (2 * p.toList.length + 12) [] (wholePieces inner) { st with flags := {} } =
      some (part, st') := by
  unfold readPart? at h
  rw [wholeText_toList] at h
  have fuel : 2 * ('^' :: '(' :: '?' :: ':' :: (p.toList ++ [')', '$'])).length + 2 =
      2 * p.toList.length + 12 + 1 + 1 := by simp; omega
  dsimp only at h
  rw [fuel] at h
  obtain ⟨⟨_, st'⟩, run, rfl⟩ := Option.map_eq_some_iff.1 h
  rw [alternatives_piece rfl rfl (by decide) (by decide)] at run
  obtain ⟨pieces, mid, start, run⟩ := bind_eq_some_iff.1 run
  obtain ⟨rfl, rfl⟩ := Prod.mk.inj (Option.some.inj start)
  have run : alternatives false (2 * p.toList.length + 12 + 1) []
      [.part { node := .look .textStart }]
      { rest := '(' :: '?' :: ':' :: (p.toList ++ [')', '$']) } = some (_, st') := run
  rw [alternatives_piece rfl rfl (by decide) (by decide)] at run
  obtain ⟨pieces, mid, group, run⟩ := bind_eq_some_iff.1 run
  obtain ⟨opening, mid', opened, group⟩ := bind_eq_some_iff.1 group
  cases (openGroup_unnamed _).symm.trans opened
  obtain ⟨⟨⟩, mid', set, group⟩ := bind_eq_some_iff.1 group
  cases set
  obtain ⟨inner, st, inside, group⟩ := bind_eq_some_iff.1 group
  obtain ⟨rfl, rfl⟩ := Prod.mk.inj (Option.some.inj group)
  exact ⟨inner, st, st', inside, run⟩

/-- A text that leaves the group around it open is an expression by itself. -/
theorem readPart?_alone {inner : Part}
    (h : alternatives true (2 * p.toList.length + 12) [] [] { rest := p.toList ++ [')', '$'] } =
      some (inner, st)) (opened : ¬ ClosesGroup p) :
    st.rest = ['$'] ∧ readPart? p = some inner := by
  have start (g : Bool) {a b : Nat} (ha : p.toList.length < a) (hb : p.toList.length < b) :
      alternatives g a [] [] { rest := p.toList } = alternatives g b [] [] { rest := p.toList } :=
    alternatives_enough ha hb
  have inside {s r : List Char} {g : Bool} (stop : st.rest = s) (meets : Meets ['$'] g s r) :
      alternatives g (2 * p.toList.length + 2) [] [] { rest := p.toList } =
        some (inner, st.left r) := by
    rw [State.eq_left stop] at h
    have h : alternatives true (2 * p.toList.length + 12) [] []
        (State.left { rest := [] } (p.toList ++ [')', '$'])) = some (inner, st.left s) := h
    rw [start g (by omega) (by omega : _ < 2 * p.toList.length + 12)]
    exact alternatives_within h meets
  have rest : st.rest = ['$'] := by
    have closed : ')' :: st.rest <:+ p.toList ++ [')', '$'] := alternatives_closed h
    rcases List.suffix_or_suffix_of_suffix closed (List.suffix_append p.toList [')', '$']) with
      past | ⟨front, whole⟩
    · rcases List.suffix_cons_iff.1 past with all | past
      · exact (List.cons.inj all).2
      · rcases List.suffix_cons_iff.1 past with all | past
        · cases all
        · cases List.suffix_nil.1 past
    · cases front with
      | nil => exact (List.cons.inj whole).2.symm
      | cons c front =>
        have stop : st.rest = front ++ ')' :: ['$'] := (List.cons.inj whole).2.symm
        refine absurd ?_ opened
        unfold ClosesGroup
        rw [inside stop (.inside front)]
        rfl
  refine ⟨rest, ?_⟩
  unfold readPart?
  dsimp only
  rw [inside rest .atEnd]
  rfl

theorem ofSequence_whole (r : Node) : Node.ofSequence [.look .textStart, r, .look .textEnd] =
    .seq (.look .textStart) (r.followedBy (.look .textEnd)) := by
  cases r <;> rfl

/-- The expression between the marks for the start and end of the text. -/
theorem readPart?_marked (h : readPart? (wholeText p) = some part) (opened : ¬ ClosesGroup p) :
    ∃ inner, readPart? p = some inner ∧
      part.node = .seq (.look .textStart) (inner.node.followedBy (.look .textEnd)) ∧
      part.depth = inner.depth + 2 := by
  obtain ⟨inner, st, st', inside, run⟩ := readPart?_whole h
  obtain ⟨rest, alone⟩ := readPart?_alone inside opened
  refine ⟨inner, alone, ?_⟩
  have ending : ({ st with flags := {} } : State).rest.head? = some '$' := congrArg List.head? rest
  have run : alternatives false (2 * p.toList.length + 10 + 1 + 1) [] (wholePieces inner)
      { st with flags := {} } = some (part, st') := run
  rw [alternatives_piece rfl ending (by decide) (by decide)] at run
  obtain ⟨pieces, mid, last, run⟩ := bind_eq_some_iff.1 run
  obtain ⟨rfl, rfl⟩ := Prod.mk.inj (Option.some.inj last)
  have none : (st.rest.drop 1).head? = none := by rw [rest]; rfl
  rw [alternatives_end rfl none] at run
  obtain ⟨rfl, -⟩ := Prod.mk.inj (Option.some.inj run)
  constructor
  · change Node.ofAlternatives [Node.ofSequence [.look .textStart, inner.node, .look .textEnd]] = _
    rw [ofSequence_whole]
    rfl
  · simp [alternativesOf, sequenceOf, wholePieces, Piece.toPart, depthOf]

end Reading

section Matching

variable {r : Node}

theorem total_seq (backward : Bool) (a b : Node) : ((Node.seq a b).room backward).total backward =
    (a.room backward).total backward + (b.room backward).total backward := rfl

theorem total_marked (backward : Bool) (r : Node) : (r.room backward).total backward ≤
    ((Node.seq (.look .textStart) (r.followedBy (.look .textEnd))).room backward).total
      backward := by
  have behind : (r.room backward).total backward ≤
      ((r.followedBy (.look .textEnd)).room backward).total backward := by
    cases r with
    | empty => exact Nat.le_refl _
    | _ => exact Nat.le_add_right _ _
  rw [total_seq]
  omega

theorem size_marked (r : Node) :
    r.size ≤ (Node.seq (.look .textStart) (r.followedBy (.look .textEnd))).size := by
  have forward := total_marked false r
  have backward := total_marked true r
  refine Nat.max_le.2 ⟨le_trans ?_ (Nat.le_max_left _ _), le_trans ?_ (Nat.le_max_right _ _)⟩
  · omega
  · omega

theorem reach_behind (text : Array Char) (ps : List Nat) :
    (r.followedBy (.look .textEnd)).simplify.reach text ps =
      (r.simplify.reach text ps).filter fun i => i == text.size := by
  cases r <;> rfl

theorem range_start (n : Nat) : (List.range (n + 1)).filter (fun i => i == 0) = [0] := by
  rw [List.range_succ_eq_map]
  simp

theorem isMatch_marked (r : Node) (name : String) :
    (Node.seq (.look .textStart) (r.followedBy (.look .textEnd))).simplify.isMatch name = true ↔
      r.simplify.MatchesWhole name := by
  have reached : (Node.seq (.look .textStart) (r.followedBy (.look .textEnd))).simplify.reach
      name.toList.toArray (List.range (name.toList.toArray.size + 1)) =
        (r.simplify.reach name.toList.toArray [0]).filter fun i => i == name.toList.length := by
    rw [← range_start name.toList.toArray.size]
    exact reach_behind _ _
  unfold Node.isMatch Node.MatchesWhole
  dsimp only
  rw [reached]
  simp [List.filter_eq_nil_iff]

end Matching

/-- The pattern matches the names that the expression matches as a whole, which is read from the
same text with nothing around it. -/
def Faithful (p : String) (pattern : Node) : Prop :=
  ∃ alone, Node.ofExpression p = .ok alone ∧
    ∀ name, pattern.isMatch name = true ↔ alone.MatchesWhole name

theorem faithful_iff {p : String} {pattern : Node} (h : Node.ofPattern p = .ok pattern) :
    Faithful p pattern ↔ ¬ ClosesGroup p := by
  constructor
  · rintro ⟨alone, read, -⟩ closes
    obtain ⟨part, found, -⟩ := Node.ofExpression_eq_ok_iff.1 read
    obtain ⟨⟨_, st⟩, whole, rfl⟩ := Option.map_eq_some_iff.1 found
    obtain ⟨⟨inner, st'⟩, ends⟩ := Option.isSome_iff_exists.1 closes
    exact not_alone ends whole
  · intro opened
    obtain ⟨part, found, shallow, small, rfl⟩ := Node.ofExpression_eq_ok_iff.1 h
    obtain ⟨inner, alone, node, depth⟩ := readPart?_marked found opened
    refine ⟨inner.node.simplify, Node.ofExpression_eq_ok_iff.2 ⟨inner, alone, by omega, ?_, rfl⟩,
      fun name => ?_⟩
    · rw [node] at small
      exact (size_marked inner.node).trans small
    · rw [node]
      exact isMatch_marked inner.node name

end Pattern

open Pattern (Node Faithful ClosesGroup)

namespace Selection

/-- The pattern, unless it is empty, is among those that were read, and it stands for its own text
unless that ends the group it is put into. -/
def ReadsWhole (pattern : Option String) (patterns : List Node) : Prop :=
  ∀ p, pattern = some p → p ≠ "" →
    ∃ n ∈ patterns, Node.ofPattern p = .ok n ∧ (Faithful p n ↔ ¬ ClosesGroup p)

theorem readsWhole_patternsOf {pattern : Option String} (h : Compiles pattern) :
    ReadsWhole pattern (patternsOf pattern) := by
  intro p given nonempty
  obtain ⟨n, good⟩ := h p given nonempty
  exact ⟨n, mem_patternsOf_iff.2 ⟨p, given, nonempty, good⟩, good, Pattern.faithful_iff good⟩

theorem ReadsWhole.mono {pattern : Option String} {patterns more : List Node}
    (h : ReadsWhole pattern patterns) (sub : patterns ⊆ more) : ReadsWhole pattern more := by
  intro p given nonempty
  obtain ⟨n, hn, found⟩ := h p given nonempty
  exact ⟨n, sub hn, found⟩

/-- Where the patterns of all requests can be read, each of them is an expression by itself and
matches the names that this matches as a whole, exactly if it does not end the group around it. -/
theorem patterns_whole_iff {rs : List ViewRequest} {sel : Selection} (h : ofRequests rs = .ok sel)
    {r : ViewRequest} (hr : r ∈ rs) :
    ReadsWhole r.includePattern sel.includePatterns ∧
      ReadsWhole r.excludePattern sel.excludePatterns := by
  have readable : ∀ r ∈ rs, Readable r := by
    intro r hr
    by_contra bad
    obtain ⟨f, failed⟩ := ofRequests_of_not_readable hr bad
    rw [failed] at h
    cases h
  obtain rfl := Except.ok.inj ((ofRequests_of_readable readable).symm.trans h)
  constructor
  · refine (readsWhole_patternsOf (compiles_iff.2 (readable r hr).1)).mono fun n hn => ?_
    exact List.mem_append_right _ (List.mem_flatMap.2 ⟨r, hr, hn⟩)
  · refine (readsWhole_patternsOf (compiles_iff.2 (readable r hr).2)).mono fun n hn => ?_
    exact List.mem_append_right _ (List.mem_flatMap.2 ⟨r, hr, hn⟩)

def peopleNames : ViewRequest where
  includePattern := some "[a-z]+_name|(?x: n i c k )"
  excludePattern := some "secret.*"

theorem exists_ok {x : Except Failure Selection} {p : Selection → Bool}
    (h : x.toOption.any p = true) : ∃ sel, x = .ok sel ∧ p sel = true := by
  cases x with
  | ok sel => exact ⟨sel, rfl, h⟩
  | error f => cases h

theorem people_patterns_whole : ∃ sel, ofRequests [peopleNames] = .ok sel ∧
    (∃ n ∈ sel.includePatterns, Faithful "[a-z]+_name|(?x: n i c k )" n) ∧
    ∃ n ∈ sel.excludePatterns, Faithful "secret.*" n := by
  obtain ⟨sel, h, -⟩ := exists_ok (x := ofRequests [peopleNames]) (p := fun _ => true)
    (by decide +kernel)
  obtain ⟨includes, excludes⟩ := patterns_whole_iff h (List.mem_singleton_self peopleNames)
  obtain ⟨n, hn, -, shown⟩ := includes _ rfl (by decide)
  obtain ⟨m, hm, -, hidden⟩ := excludes _ rfl (by decide)
  exact ⟨sel, h, ⟨n, hn, shown.2 (by decide +kernel)⟩, m, hm, hidden.2 (by decide +kernel)⟩

/-- The text ends the group that it is put into and opens another one. -/
def crossing : String := "a)|(?:b"

/-- It is read as a pattern, although it is no expression, and the pattern matches more than whole
names. -/
theorem crossing_pattern_read :
    (∃ sel, ofRequests [{ includePattern := some crossing }] = .ok sel ∧
      sel.accepts "ax" = true ∧ sel.accepts "xb" = true) ∧
    ¬ ∃ alone, Node.ofExpression crossing = .ok alone := by
  constructor
  · obtain ⟨sel, h, both⟩ := exists_ok (x := ofRequests [{ includePattern := some crossing }])
      (p := fun sel => sel.accepts "ax" && sel.accepts "xb") (by decide +kernel)
    exact ⟨sel, h, (Bool.and_eq_true _ _).mp both⟩
  · rintro ⟨alone, h⟩
    obtain ⟨part, found, -⟩ := Pattern.Node.ofExpression_eq_ok_iff.1 h
    have none : (Pattern.readPart? crossing).isNone = true := by decide +kernel
    rw [found] at none
    cases none

end Selection

end RecordViews
