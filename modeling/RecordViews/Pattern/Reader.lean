import RecordViews.Pattern.Brackets
import RecordViews.Pattern.Fault
import RecordViews.Pattern.Size

/-!
Reading regular expressions. Flags hold from where they are set to the end of their group. An
expression may be nested to a certain depth; sequences and alternatives of one part add none.
-/

namespace RecordViews.Pattern

open Text (CodePoints)
open PatternReader

def depthLimit : Nat := 250

structure Part where
  node : Node := .empty
  depth : Nat := 0
deriving Repr, Inhabited

/-- A part of a sequence: one of the above, or flags, which cannot be repeated. -/
inductive Piece where
  | part (p : Part)
  | flags

def Piece.toPart : Piece → Part
  | .part p => p
  | .flags => {}

def depthOf (parts : List Part) : Nat :=
  let most := (parts.map (·.depth)).foldl Nat.max 0
  if parts.length ≤ 1 then most else most + 1

/-- The sequence of pieces, of which the last one comes first. -/
def sequenceOf (pieces : List Piece) : Part :=
  let parts := pieces.reverse.map Piece.toPart
  { node := Node.ofSequence (parts.map (·.node)), depth := depthOf parts }

/-- The alternatives with the pieces of the last one, which comes first. -/
def alternativesOf (done : List Part) (pieces : List Piece) : Part :=
  let parts := (sequenceOf pieces :: done).reverse
  { node := Node.ofAlternatives (parts.map (·.node)), depth := depthOf parts }

def Flags.set? (f : Flags) (letter : Char) (on : Bool) : Option Flags :=
  match letter with
  | 'i' => some { f with ignoreCase := on }
  | 'm' => some { f with multiline := on }
  | 's' => some { f with dotAll := on }
  | 'U' => some f
  | 'u' => some { f with unicode := on }
  | 'R' => some { f with returns := on }
  | 'x' => some { f with spaced := on }
  | _ => none

/-- Flags up to a colon or closing parenthesis, which is not taken. -/
def flagLetters : Nat → List Char → Bool → Flags → PatternReader (Flags × Bool)
  | 0, _, _, _ => refuse
  | n + 1, seen, on, f => do
    match ← rest with
    | [] => refuse
    | c :: s =>
      if c == ':' || c == ')' then
        if seen.head? == some '-' then refuse else return (f, !seen.isEmpty)
      else if seen.contains c then refuse
      else
        setRest s
        if c == '-' then flagLetters n (c :: seen) false f
        else
          match f.set? c on with
          | some g => flagLetters n (c :: seen) on g
          | none => refuse

def groupName : PatternReader Unit := do
  let s ← rest
  let name := s.takeWhile (· != '>')
  let isFirst (c : Char) : Bool := c == '_' || Text.alphabetic.containsChar c
  let isLater (c : Char) : Bool :=
    c == '_' || c == '.' || c == '[' || c == ']' || Text.isAlphanumeric c
  match name, s.drop name.length with
  | c :: more, _ :: after =>
    if !isFirst c || !more.all isLater || (← get).names.contains name then refuse
    modify fun st => { st with rest := after, names := name :: st.names }
  | _, _ => refuse

inductive Opening where
  /-- Flags for the rest of the group around it. -/
  | setFlags (f : Flags)
  /-- A group in which these flags hold; `captures` if what it matches can be asked for. -/
  | opened (f : Flags) (captures : Bool)

def openGroup : PatternReader Opening := do
  bump
  let flags := (← get).flags
  let s ← rest
  if ["?=", "?!", "?<=", "?<!"].any fun t => t.toList.isPrefixOf s then refuse
  let named ← if ← eat "?P<" then pure true else eat "?<"
  if named then
    groupName
    return .opened flags true
  if ← eat "?" then
    let (f, any) ← flagLetters ((← rest).length + 1) [] true flags
    let close ← peek
    take
    if close == some ')' then
      if any then return .setFlags f else refuse
    return .opened f false
  return .opened flags true

/-- A decimal number; blanks around it do not count. -/
def decimal : PatternReader Nat := do
  setRest ((← rest).dropWhile Text.isBlank)
  let digits ← takeAll Char.isDigit
  let _ ← takeAll Text.isBlank
  let n := digits.foldl (fun n c => n * 10 + (c.toNat - 48)) 0
  if digits.isEmpty || Nat.pow 2 32 ≤ n then refuse
  return n

/-- The counts of a repetition, from its opening brace on. -/
def counts : PatternReader (Nat × Option Nat) := do
  bump
  if (← peek).isNone then refuse
  let min ← decimal
  let found ←
    match ← peek with
    | some ',' =>
      bump
      match ← peek with
      | some '\x7d' => pure (min, none)
      | _ => pure (min, some (← decimal))
    | _ => pure (min, some min)
  if (← peek) != some '\x7d' || found.2.any (· < min) then refuse
  bump
  return found

/-- The question mark that makes a repetition lazy, which does not change what matches. -/
def lazyMark : PatternReader Unit := do
  let _ ← eat "?"

def atomNode (flags : Flags) : Atom → PatternReader Node
  | .char c byte =>
    if byte && !flags.unicode && 128 ≤ c.toNat then refuse
    else if flags.ignoreCase && !flags.unicode && 128 ≤ c.toNat then
      return .chars (CodePoints.singleton c.toNat)
    else return .chars (foldAndNegate flags false (CodePoints.singleton c.toNat))
  | .set s => return .chars s
  | .look l => return .look l
  | .dot =>
    let ends := if flags.returns then [(10, 10), (13, 13)] else [(10, 10)]
    if !flags.unicode then refuse
    else if flags.dotAll then return .chars CodePoints.all
    else return .chars (CodePoints.ofRanges ends).complement

/-- The conditions that `^` and `$` stand for. -/
def lineStart (f : Flags) : Look :=
  if !f.multiline then .textStart else if f.returns then .returnStart else .lineStart

def lineEnd (f : Flags) : Look :=
  if !f.multiline then .textEnd else if f.returns then .returnEnd else .lineEnd

/-- Reads alternatives up to the end of the group or text; `pieces` holds the parts of the current
one, last first. -/
def alternatives (inGroup : Bool) :
    Nat → List Part → List Piece → PatternReader Part
  | 0, _, _ => refuse
  | n + 1, done, pieces => do
    skip
    let flags := (← get).flags
    let next (node : Node) (depth : Nat) : PatternReader Part :=
      alternatives inGroup n done (.part { node, depth } :: pieces)
    let repeated (min : Nat) (max : Option Nat) : PatternReader Part := do
      match pieces with
      | .part p :: before =>
        let whole : Part := { node := Node.ofRepetition min max p.node, depth := p.depth + 1 }
        alternatives inGroup n done (.part whole :: before)
      | _ => refuse
    match ← peek with
    | none => if inGroup then refuse else return alternativesOf done pieces
    | some ')' =>
      if !inGroup then refuse
      take
      return alternativesOf done pieces
    | some '|' =>
      take
      alternatives inGroup n (sequenceOf pieces :: done) []
    | some '(' =>
      match ← openGroup with
      | .setFlags f =>
        modify fun st => { st with flags := f }
        alternatives inGroup n done (.flags :: pieces)
      | .opened f captures =>
        modify fun st => { st with flags := f }
        let inner ← alternatives true n [] []
        modify fun st => { st with flags := flags }
        next (if captures then .group inner.node else inner.node) (inner.depth + 1)
    | some '[' =>
      let inner ← classFrom ((← rest).length + 1) [] (← openClass)
      next (.chars inner.set) inner.depth
    | some '?' =>
      take
      lazyMark
      repeated 0 (some 1)
    | some '*' =>
      take
      lazyMark
      repeated 0 none
    | some '+' =>
      take
      lazyMark
      repeated 1 none
    | some '\x7b' =>
      if pieces.isEmpty then refuse
      let (min, max) ← counts
      lazyMark
      repeated min max
    | some '.' =>
      take
      next (← atomNode flags .dot) 0
    | some '^' =>
      take
      next (.look (lineStart flags)) 0
    | some '$' =>
      take
      next (.look (lineEnd flags)) 0
    | some '\\' =>
      next (← atomNode flags (← escape)) 0
    | some c =>
      take
      next (← atomNode flags (.char c false)) 0

def readPart? (text : String) : Option Part :=
  let s := text.toList
  (alternatives false (2 * s.length + 2) [] [] { rest := s }).map (·.1)

/-- The expression between marks for the start and end of the text, as member patterns are read:
the marks are put around the text itself. -/
def wholeText (pattern : String) : String :=
  "^(?:" ++ pattern ++ ")$"

/-- Reads a pattern for whole member names. -/
def Node.ofPattern (pattern : String) : Except Fault Node :=
  match readPart? (wholeText pattern) with
  | none => .error .malformed
  | some part =>
    if part.depth > depthLimit then .error .malformed
    else if part.node.size > sizeLimit then .error .tooLarge
    else .ok part.node.simplify

end RecordViews.Pattern
