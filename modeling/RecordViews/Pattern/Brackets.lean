import RecordViews.Pattern.Escapes

/-!
Reading classes in brackets. Classes may stand inside classes, and operators between them take
everything on their left as one side.
-/

namespace RecordViews.Pattern

open Text (CodePoints)
open PatternReader

inductive ClassOp where
  | inter | diff | symmDiff
deriving DecidableEq, Repr, Inhabited

def ClassOp.apply : ClassOp → CodePoints → CodePoints → CodePoints
  | .inter => CodePoints.inter
  | .diff => CodePoints.diff
  | .symmDiff => CodePoints.symmDiff

/-- A set of characters, and how deeply the classes it was read from are nested. -/
structure NestedSet where
  set : CodePoints := {}
  depth : Nat := 0
deriving Repr, Inhabited

/-- A class between its brackets: what stands before the last operator, and the items since. -/
structure ClassState where
  negated : Bool
  pending : Option (ClassOp × NestedSet) := none
  union : CodePoints := {}
  count : Nat := 0
  depth : Nat := 0
deriving Repr, Inhabited

/-- The items since the last operator; several of them are nested in their union. -/
def ClassState.items (c : ClassState) : NestedSet :=
  { set := c.union, depth := if c.count ≤ 1 then c.depth else c.depth + 1 }

def ClassState.close (flags : Flags) (c : ClassState) : NestedSet :=
  match c.pending with
  | none => c.items
  | some (op, left) =>
    let right := c.items
    { set := op.apply (foldAndNegate flags false left.set) (foldAndNegate flags false right.set)
      depth := Nat.max left.depth right.depth + 1 }

def ClassState.add (c : ClassState) (s : NestedSet) : ClassState :=
  { c with
    union := c.union.union s.set
    count := c.count + 1
    depth := Nat.max c.depth s.depth }

def ClassState.addSet (c : ClassState) (s : CodePoints) : ClassState :=
  c.add { set := s }

def ClassState.operate (flags : Flags) (op : ClassOp) (c : ClassState) : ClassState :=
  { negated := c.negated, pending := some (op, c.close flags) }

/-- The opening of a class, with the signs that stand for themselves there. -/
def openClass : PatternReader ClassState := do
  bump
  let negated := (← peek) == some '^'
  if negated then bump
  let dashes ← takeAll (· == '-')
  let dash := CodePoints.singleton '-'.toNat
  let c : ClassState := dashes.foldl (fun c _ => c.addSet dash) { negated }
  match ← peek with
  | none => refuse
  | some ']' =>
    if dashes.isEmpty then
      bump
      if (← peek).isNone then refuse
      return c.addSet (CodePoints.singleton ']'.toNat)
    return c
  | some _ => return c

/-- A named ASCII class between colons, if one comes next. -/
def asciiItem? : PatternReader (Option (CodePoints × Bool)) := do
  match ← rest with
  | '[' :: ':' :: s =>
    let negated := s.head? == some '^'
    let body := if negated then s.drop 1 else s
    let name := body.takeWhile (· != ':')
    match body.drop name.length with
    | ':' :: ']' :: after =>
      match asciiClass? (String.ofList name) with
      | some set =>
        setRest after
        return some (set, negated)
      | none => return none
    | _ => return none
  | _ => return none

def classAtom : PatternReader Atom := do
  match ← peek with
  | none => refuse
  | some '\\' => escape
  | some c =>
    take
    return .char c false

/-- The number of a character in a class; beyond ASCII there is none without Unicode. -/
def classPoint (flags : Flags) : Atom → PatternReader Nat
  | .char c _ => if flags.unicode || c.toNat < 128 then return c.toNat else refuse
  | _ => refuse

/-- The next character but one that counts, as far as can be seen without reading a comment: of a
comment only the mark is passed over. -/
def glance (flags : Flags) (s : List Char) : Option Char :=
  let rest := s.drop 1
  if !flags.spaced then rest.head?
  else
    match rest.dropWhile Text.isBlank with
    | '#' :: comment => (comment.dropWhile Text.isBlank).head?
    | after => after.head?

def classItem (flags : Flags) : PatternReader CodePoints := do
  let first ← classAtom
  skip
  let s ← rest
  let next := glance flags s
  if s.isEmpty then refuse
  if s.head? != some '-' || next == some ']' || next == some '-' then
    match first with
    | .set set => return set
    | _ => return CodePoints.singleton (← classPoint flags first)
  bump
  let last ← classAtom
  let low ← classPoint flags first
  let high ← classPoint flags last
  if low ≤ high then return CodePoints.ofRanges [(low, high)] else refuse

/-- A class from its opening bracket on. `outer` holds the classes around the one being read. -/
def classFrom : Nat → List ClassState → ClassState → PatternReader NestedSet
  | 0, _, _ => refuse
  | n + 1, outer, c => do
    skip
    let flags := (← get).flags
    match ← rest with
    | [] => refuse
    | '[' :: _ =>
      match ← asciiItem? with
      | some (set, negated) =>
        classFrom n outer (c.addSet (← checkAscii flags (foldAndNegate flags negated set)))
      | none => classFrom n (c :: outer) (← openClass)
    | ']' :: _ =>
      take
      let inner := c.close flags
      let set ← checkAscii flags (foldAndNegate flags c.negated inner.set)
      let closed : NestedSet := { set, depth := inner.depth + 1 }
      match outer with
      | [] => return closed
      | parent :: above => classFrom n above (parent.add closed)
    | '&' :: '&' :: s =>
      setRest s
      classFrom n outer (c.operate flags .inter)
    | '-' :: '-' :: s =>
      setRest s
      classFrom n outer (c.operate flags .diff)
    | '~' :: '~' :: s =>
      setRest s
      classFrom n outer (c.operate flags .symmDiff)
    | _ => classFrom n outer (c.addSet (← classItem flags))

end RecordViews.Pattern
