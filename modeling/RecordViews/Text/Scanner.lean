/-!
Reading text character by character. A scanner takes characters off the front of a text, or fails.
-/

namespace RecordViews.Text

abbrev Scanner (α : Type) := StateT (List Char) Option α

namespace Scanner

def sees (start : String) : Scanner Bool := fun s => some (start.toList.isPrefixOf s, s)

def seesChar (p : Char → Bool) : Scanner Bool := fun s => some (s.head?.any p, s)

def atEnd : Scanner Bool := fun s => some (s.isEmpty, s)

def one (p : Char → Bool) : Scanner Char
  | c :: rest => if p c then some (c, rest) else none
  | [] => none

def exactly (text : String) : Scanner Unit := fun s =>
  if text.toList.isPrefixOf s then some ((), s.drop text.length) else none

def run (p : Char → Bool) : Scanner (List Char) := fun s =>
  some (s.takeWhile p, s.dropWhile p)

def run1 (p : Char → Bool) : Scanner (List Char) := do
  return (← one p) :: (← run p)

def exactRun (p : Char → Bool) (n : Nat) : Scanner (List Char) := fun s =>
  let taken := s.take n
  if taken.length == n && taken.all p then some (taken, s.drop n) else none

def skip (p : Char → Bool) : Scanner Unit := fun s => some ((), s.dropWhile p)

/-- Repeats a step while it answers more, for a number of rounds at most. -/
def repeatWith {α : Type} (step : α → Scanner (α × Bool)) : Nat → α → Scanner α
  | 0, _ => failure
  | n + 1, a => do
    let (b, more) ← step a
    if more then repeatWith step n b else return b

/-- Repeats a step that takes a character in every round that goes on. -/
def loop {α : Type} (start : α) (step : α → Scanner (α × Bool)) : Scanner α := fun s =>
  repeatWith step (s.length + 2) start s

def whole? {α : Type} (scanner : Scanner α) (text : String) : Option α :=
  match scanner text.toList with
  | some (a, []) => some a
  | _ => none

end Scanner

end RecordViews.Text
