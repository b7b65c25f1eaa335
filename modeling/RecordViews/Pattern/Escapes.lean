import RecordViews.Pattern.Basic
import RecordViews.Pattern.Classes

/-!
Reading the parts of regular expressions that stand for one character or place. A text that is no
expression has no node; why it is none does not matter.
-/

namespace RecordViews.Pattern

open Text (CodePoints)

structure Flags where
  ignoreCase : Bool := false
  multiline : Bool := false
  dotAll : Bool := false
  unicode : Bool := true
  /-- A carriage return ends a line too. -/
  returns : Bool := false
  /-- Blanks and comments between parts are skipped. -/
  spaced : Bool := false
deriving DecidableEq, Repr, Inhabited

/-- What is left of an expression, the flags in force, and the group names used. -/
structure State where
  rest : List Char
  flags : Flags := {}
  names : List (List Char) := []
deriving Repr, Inhabited

abbrev PatternReader := StateT State Option

namespace PatternReader

def refuse {α : Type} : PatternReader α := fun _ => none

def rest : PatternReader (List Char) := do return (← get).rest

def peek : PatternReader (Option Char) := do return (← rest).head?

def setRest (s : List Char) : PatternReader Unit := modify fun st => { st with rest := s }

def skipSpaces : Nat → List Char → List Char
  | 0, s => s
  | _ + 1, [] => []
  | n + 1, c :: s =>
    if Text.isBlank c then skipSpaces n s
    else if c == '#' then skipSpaces n ((c :: s).dropWhile (· != '\n'))
    else c :: s

def skip : PatternReader Unit := do
  if (← get).flags.spaced then
    let s ← rest
    setRest (skipSpaces (s.length + 1) s)

/-- Takes one character and what does not count behind it. -/
def bump : PatternReader Unit := do
  setRest ((← rest).drop 1)
  skip

def take : PatternReader Unit := do setRest ((← rest).drop 1)

def eat (text : String) : PatternReader Bool := do
  let s ← rest
  if text.toList.isPrefixOf s then
    setRest (s.drop text.length)
    return true
  return false

end PatternReader

open PatternReader

/-- Characters that mean something unless a backslash is in front. -/
def isMeta (c : Char) : Bool :=
  "\\.+*?()|[]\x7b\x7d^$#&-~".toList.contains c

/-- Characters that may have a backslash in front without need. -/
def isEscapable (c : Char) : Bool :=
  isMeta c || (c.toNat < 128 && !c.isAlphanum && c != '<' && c != '>')

def isHex (c : Char) : Bool :=
  c.isDigit || ('a' ≤ c && c ≤ 'f') || ('A' ≤ c && c ≤ 'F')

def hexDigit (c : Char) : Nat :=
  if c.isDigit then c.toNat - 48 else if 'a' ≤ c then c.toNat - 87 else c.toNat - 55

def hexNumber (digits : List Char) : Nat :=
  digits.foldl (fun n c => n * 16 + hexDigit c) 0

/-- The character of a number; there is none beyond the last or for half of a pair. -/
def charOf? (n : Nat) : Option Char :=
  if n < 0xD800 || (0xDFFF < n && n ≤ 0x10FFFF) then some (Char.ofNat n) else none

/-- Up to `n` characters that satisfy `p`, with what does not count behind each. -/
def takeWhileUpTo (p : Char → Bool) : Nat → List Char → PatternReader (List Char)
  | 0, done => return done.reverse
  | n + 1, done => do
    match ← peek with
    | some c =>
      if p c then
        bump
        takeWhileUpTo p n (c :: done)
      else return done.reverse
    | none => return done.reverse

def takeAll (p : Char → Bool) : PatternReader (List Char) := do
  takeWhileUpTo p (← rest).length []

inductive Atom where
  /-- A character; `byte` if it is written as a byte. -/
  | char (c : Char) (byte : Bool)
  | set (s : CodePoints)
  | look (l : Look)
  | dot
deriving Repr, Inhabited

def hexEscape (letter : Char) : PatternReader Atom := do
  bump
  match ← peek with
  | none => refuse
  | some '\x7b' =>
    bump
    let digits ← takeAll isHex
    if (← peek) != some '\x7d' || digits.isEmpty then refuse
    bump
    match charOf? (hexNumber digits) with
    | some c => return .char c false
    | none => refuse
  | some _ =>
    let count := if letter == 'x' then 2 else if letter == 'u' then 4 else 8
    let digits ← takeWhileUpTo isHex count []
    if digits.length < count then refuse
    match charOf? (hexNumber digits) with
    | some c => return .char c (letter == 'x')
    | none => refuse

/-- Splits a property at its first `!=`, or else colon, or else `=`, into its name and value. The
sign between them makes no difference. -/
def splitProperty (text : List Char) : List Char × Option (List Char) :=
  let rec unequal : List Char → List Char → Option (List Char × List Char)
    | _, [] => none
    | done, '!' :: '=' :: rest => some (done.reverse, rest)
    | done, c :: rest => unequal (c :: done) rest
  match unequal [] text with
  | some (name, value) => (name, some value)
  | none =>
    let mark := if text.contains ':' then ':' else '='
    if text.contains mark then
      (text.takeWhile (· != mark), some ((text.dropWhile (· != mark)).drop 1))
    else (text, none)

/-- A class with the case closed if case does not count, and negated if it is. -/
def foldAndNegate (flags : Flags) (negated : Bool) (s : CodePoints) : CodePoints :=
  let asciiCase (s : CodePoints) : CodePoints :=
    let lower := (s.inter (ascii [('A', 'Z')])).ranges.map fun r => (r.1 + 32, r.2 + 32)
    let upper := (s.inter (ascii [('a', 'z')])).ranges.map fun r => (r.1 - 32, r.2 - 32)
    CodePoints.ofRanges (s.ranges ++ lower ++ upper)
  let folded :=
    if flags.ignoreCase then (if flags.unicode then closeCase s else asciiCase s) else s
  if negated then folded.complement else folded

def checkAscii (flags : Flags) (s : CodePoints) : PatternReader CodePoints :=
  if flags.unicode || (s.inter (ascii [('\x00', '\x7f')])) == s then return s else refuse

def propertyEscape (negated : Bool) : PatternReader Atom := do
  let flags := (← get).flags
  bump
  let found ←
    match ← peek with
    | none => refuse
    | some '\x7b' =>
      bump
      let text ← takeAll (· != '\x7d')
      if (← peek) != some '\x7d' then refuse
      take
      match splitProperty text with
      | (name, none) => pure (named? name)
      | (name, some value) => pure (valued? name value)
    | some c =>
      if c == '\\' then refuse
      bump
      pure (named? [c])
  match flags.unicode, found with
  | true, some s => return .set (foldAndNegate flags negated s)
  | _, _ => refuse

/-- The word behind `\b`, if there is one in braces. -/
def boundaryWord (word : CodePoints) : PatternReader Look := do
  let start ← rest
  if start.head? != some '\x7b' then return .boundary word
  let isPart (c : Char) : Bool := c.isAlpha || c == '-'
  bump
  match ← peek with
  | none => refuse
  | some c =>
    if !isPart c then
      setRest start
      return .boundary word
    let name := String.ofList (← takeAll isPart)
    if (← peek) != some '\x7d' then refuse
    take
    if name == "start" then return .wordStart word
    else if name == "end" then return .wordEnd word
    else if name == "start-half" then return .halfStart word
    else if name == "end-half" then return .halfEnd word
    else refuse

def escape : PatternReader Atom := do
  take
  let flags := (← get).flags
  let word := wordSet flags.unicode
  let perl (s : CodePoints) (negated : Bool) : PatternReader Atom := do
    take
    return .set (← checkAscii flags (if negated then s.complement else s))
  match ← peek with
  | none => refuse
  | some 'x' => hexEscape 'x'
  | some 'u' => hexEscape 'u'
  | some 'U' => hexEscape 'U'
  | some 'p' => propertyEscape false
  | some 'P' => propertyEscape true
  | some 'd' => perl (digitSet flags.unicode) false
  | some 'D' => perl (digitSet flags.unicode) true
  | some 's' => perl (blankSet flags.unicode) false
  | some 'S' => perl (blankSet flags.unicode) true
  | some 'w' => perl word false
  | some 'W' => perl word true
  | some c =>
    take
    if isEscapable c then return .char c false
    else if c == 'a' then return .char '\x07' false
    else if c == 'f' then return .char '\x0c' false
    else if c == 't' then return .char '\t' false
    else if c == 'n' then return .char '\n' false
    else if c == 'r' then return .char '\r' false
    else if c == 'v' then return .char '\x0b' false
    else if c == 'A' then return .look .textStart
    else if c == 'z' then return .look .textEnd
    else if c == 'b' then return .look (← boundaryWord word)
    else if c == 'B' then return .look (.noBoundary word)
    else if c == '<' then return .look (.wordStart word)
    else if c == '>' then return .look (.wordEnd word)
    else refuse

end RecordViews.Pattern
