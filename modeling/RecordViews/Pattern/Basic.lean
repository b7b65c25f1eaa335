import RecordViews.Text.CodePoints

/-!
Regular expressions and what they match. Matching follows the set of places in a text that are
reached so far: `reach` takes the places before a part to those behind it.
-/

namespace RecordViews.Pattern

open Text (CodePoints)

/-- A condition on a place in a text. -/
inductive Look where
  | textStart
  | textEnd
  | lineStart
  | lineEnd
  /-- As `lineStart`, where a carriage return ends a line too. -/
  | returnStart
  | returnEnd
  | boundary (word : CodePoints)
  | noBoundary (word : CodePoints)
  | wordStart (word : CodePoints)
  | wordEnd (word : CodePoints)
  | halfStart (word : CodePoints)
  | halfEnd (word : CodePoints)
deriving DecidableEq, Repr, Inhabited

inductive Node where
  | empty
  | chars (set : CodePoints)
  | look (l : Look)
  | seq (a b : Node)
  | alt (a b : Node)
  /-- From `min` to `max` times, or any number of times from `min` on. -/
  | times (min : Nat) (max : Option Nat) (a : Node)
  /-- A part that what it matches can be asked for, which nobody does. -/
  | group (a : Node)
deriving DecidableEq, Repr, Inhabited

/-- One after the other; what is empty leaves no trace. -/
def Node.followedBy : Node → Node → Node
  | .empty, b => b
  | a, .empty => a
  | a, b => .seq a b

def Node.ofSequence (parts : List Node) : Node :=
  parts.foldr Node.followedBy .empty

def Node.charSets? : List Node → Option (List CodePoints)
  | [] => some []
  | .chars s :: rest => (charSets? rest).map (s :: ·)
  | _ => none

/-- One of several; characters that are alternatives are a set. -/
def Node.ofAlternatives (ways : List Node) : Node :=
  match charSets? ways with
  | some (s :: rest) => .chars (rest.foldl CodePoints.union s)
  | _ =>
    match ways.reverse with
    | [] => .empty
    | last :: before => before.foldl (fun r a => .alt a r) last

def Node.isEmptyOnly : Node → Bool
  | .empty => true
  | .chars _ => false
  | .look _ => true
  | .seq a b => a.isEmptyOnly && b.isEmptyOnly
  | .alt a b => a.isEmptyOnly && b.isEmptyOnly
  | .times _ _ a => a.isEmptyOnly
  | .group a => a.isEmptyOnly

/-- A repetition; more than one round of what is empty is one round. -/
def Node.ofRepetition (min : Nat) (max : Option Nat) (a : Node) : Node :=
  let most := if a.isEmptyOnly then some (Nat.min (max.getD 1) 1) else max
  let least := if a.isEmptyOnly then Nat.min min 1 else min
  match least, most with
  | 0, some 0 => .empty
  | 1, some 1 => a
  | least, most => .times least most a

/-- A repetition without its empty rounds, as long as it does not matter how many there are: a star
around a star is that star. -/
def Node.repeated (min : Nat) (max : Option Nat) (a : Node) : Node :=
  let anyRounds (least : Nat) : Option Nat → Bool
    | none => least ≤ 1
    | some m => least == 0 && m == 1
  match a with
  | .times 0 none b => if anyRounds min max then .times 0 none b else .times min max a
  | .times 1 none b =>
    if anyRounds min max then .times min none b else .times min max a
  | .times 0 (some 1) b =>
    if anyRounds min max then .times 0 max b else .times min max a
  | a => .times min max a

/-- The node without groups and with nested stars joined, which matches the same texts. -/
def Node.simplify : Node → Node
  | .empty => .empty
  | .chars s => .chars s
  | .look l => .look l
  | .seq a b => .seq a.simplify b.simplify
  | .alt a b => .alt a.simplify b.simplify
  | .times min max a => Node.repeated min max a.simplify
  | .group a => a.simplify

def before? (text : Array Char) : Nat → Option Char
  | 0 => none
  | n + 1 => text[n]?

def Look.holds (text : Array Char) (i : Nat) (l : Look) : Bool :=
  let before := before? text i
  let after := text[i]?
  let isWord (word : CodePoints) (c : Option Char) : Bool := c.any word.containsChar
  match l with
  | .textStart => i == 0
  | .textEnd => i == text.size
  | .lineStart => i == 0 || before == some '\n'
  | .lineEnd => i == text.size || after == some '\n'
  | .returnStart => i == 0 || before == some '\n' || (before == some '\r' && after != some '\n')
  | .returnEnd =>
    i == text.size || after == some '\r' || (after == some '\n' && before != some '\r')
  | .boundary w => isWord w before != isWord w after
  | .noBoundary w => isWord w before == isWord w after
  | .wordStart w => !isWord w before && isWord w after
  | .wordEnd w => isWord w before && !isWord w after
  | .halfStart w => !isWord w before
  | .halfEnd w => !isWord w after

def join (a b : List Nat) : List Nat :=
  a ++ b.filter fun i => !a.contains i

/-- Does `step` `n` times. -/
def repeatStep (step : List Nat → List Nat) : Nat → List Nat → List Nat
  | 0, ps => ps
  | n + 1, ps => if ps.isEmpty then [] else repeatStep step n (step ps)

/-- Does `step` up to `n` times and gives the places reached by at least one step. `seen` holds the
places that steps have been taken from or will be; only from the `fresh` ones among them is another
step needed. -/
def spread (step : List Nat → List Nat) : Nat → List Nat → List Nat → List Nat → List Nat
  | 0, _, hit, _ => hit
  | n + 1, seen, hit, fresh =>
    if fresh.isEmpty then hit
    else
      let found := step fresh
      let new := found.filter fun i => !seen.contains i
      spread step n (seen ++ new) (join hit found) new

/-- The places reached from the given ones by matching a node. More rounds than the text has places
reach nothing new, because a round that takes no character can be done again. -/
def Node.reach (text : Array Char) : Node → List Nat → List Nat
  | .empty, ps => ps
  | .chars set, ps => ps.filterMap fun i =>
    match text[i]? with
    | some c => if set.containsChar c then some (i + 1) else none
    | none => none
  | .look l, ps => ps.filter fun i => l.holds text i
  | .seq a b, ps => b.reach text (a.reach text ps)
  | .alt a b, ps => join (a.reach text ps) (b.reach text ps)
  | .group a, ps => a.reach text ps
  | .times min max a, ps =>
    let most := text.size + 2
    let step := a.reach text
    match min, max with
    | 0, none => join ps (spread step most ps [] ps)
    | least + 1, none =>
      let first := repeatStep step (Nat.min least most) ps
      spread step most first [] first
    | least, some m =>
      let first := repeatStep step (Nat.min least most) ps
      join first (spread step (Nat.min (m - least) most) first [] first)

def Node.isMatch (r : Node) (text : String) : Bool :=
  let s := text.toList.toArray
  !(r.reach s (List.range (s.size + 1))).isEmpty

end RecordViews.Pattern
