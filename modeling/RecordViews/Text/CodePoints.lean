/-!
Sets of code points, kept as ascending ranges that neither overlap nor touch. Membership is a
search through the ranges; union, intersection and complement stay in the same form.
-/

namespace RecordViews.Text

/-- A set of code points. Each pair is a closed range. -/
structure CodePoints where
  ranges : List (Nat × Nat) := []
deriving DecidableEq, Repr, Inhabited

namespace CodePoints

def last : Nat := 0x10FFFF

def contains (s : CodePoints) (n : Nat) : Bool :=
  s.ranges.any fun r => r.1 ≤ n && n ≤ r.2

def containsChar (s : CodePoints) (c : Char) : Bool :=
  s.contains c.toNat

def isEmpty (s : CodePoints) : Bool :=
  s.ranges.isEmpty

/-- Joins a range with the ranges behind it that overlap or touch it, and those in turn with each
other. The ranges ascend by their lower ends. -/
def joinFrom (r : Nat × Nat) : List (Nat × Nat) → List (Nat × Nat)
  | [] => [r]
  | q :: rest =>
    if q.1 ≤ r.2 + 1 then joinFrom (r.1, max r.2 q.2) rest else r :: joinFrom q rest

def join : List (Nat × Nat) → List (Nat × Nat)
  | [] => []
  | r :: rest => joinFrom r rest

/-- The set of the given ranges, in any order; a range with its ends swapped is empty. -/
def ofRanges (rs : List (Nat × Nat)) : CodePoints :=
  ⟨join ((rs.filter fun r => r.1 ≤ r.2).mergeSort fun a b => a.1 ≤ b.1)⟩

def singleton (n : Nat) : CodePoints :=
  ⟨[(n, n)]⟩

def ofList (ns : List Nat) : CodePoints :=
  ofRanges (ns.map fun n => (n, n))

def all : CodePoints :=
  ⟨[(0, last)]⟩

def union (s t : CodePoints) : CodePoints :=
  ofRanges (s.ranges ++ t.ranges)

/-- The gaps between the given ranges, from `start` on. -/
def gaps (start : Nat) : List (Nat × Nat) → List (Nat × Nat)
  | [] => if start ≤ last then [(start, last)] else []
  | r :: rest =>
    if start < r.1 then (start, r.1 - 1) :: gaps (r.2 + 1) rest else gaps (r.2 + 1) rest

def complement (s : CodePoints) : CodePoints :=
  ⟨gaps 0 s.ranges⟩

def inter (s t : CodePoints) : CodePoints :=
  (s.complement.union t.complement).complement

def diff (s t : CodePoints) : CodePoints :=
  s.inter t.complement

def symmDiff (s t : CodePoints) : CodePoints :=
  (s.union t).diff (s.inter t)

end CodePoints

/-- Reads the decimal numbers of a table's text; anything else separates them. -/
def numbers (text : String) : List Nat :=
  let step (acc : List Nat × Option Nat) (c : Char) : List Nat × Option Nat :=
    if c.isDigit then (acc.1, some (acc.2.getD 0 * 10 + (c.toNat - 48)))
    else (acc.2.elim acc.1 (· :: acc.1), none)
  let (done, pending) := text.toList.foldl step ([], none)
  (pending.elim done (· :: done)).reverse

/-- Reads a table of ranges written as pairs of a gap since the last range and a length. -/
def CodePoints.ofGaps (text : String) : CodePoints :=
  let rec go (start : Nat) : List Nat → List (Nat × Nat)
    | gap :: length :: rest =>
      (start + gap, start + gap + length - 1) :: go (start + gap + length) rest
    | _ => []
  ⟨join (go 0 (numbers text))⟩

/-- Reads a table of runs from code point 0 on, each a letter and the run's length unless it is 1,
as letters and closed ranges. -/
def readRuns (text : String) : List (Char × Nat × Nat) :=
  go text.length 0 text.toList
where
  go : Nat → Nat → List Char → List (Char × Nat × Nat)
    | fuel + 1, start, letter :: rest =>
      let size := ((String.ofList (rest.takeWhile Char.isDigit)).toNat?).getD 1
      (letter, start, start + size - 1) :: go fuel (start + size) (rest.dropWhile Char.isDigit)
    | _, _, _ => []

end RecordViews.Text
