import RecordViews.Pattern.Basic

/-!
The room that a pattern takes once it is compiled. A compiled pattern is a set of states that read
byte after byte; there are two of them, one that reads forwards and one that reads backwards, and
the larger one counts. A state takes 32 bytes, a range of bytes among others 8 and a way among
others 4.
-/

namespace RecordViews.Pattern

open Text (CodePoints)

def stateSize : Nat := 32
def rangeSize : Nat := 8
def waySize : Nat := 4

def utf8 (n : Nat) : List Nat :=
  if n < 0x80 then [n]
  else if n < 0x800 then [0xC0 + n / 64, 0x80 + n % 64]
  else if n < 0x10000 then [0xE0 + n / 4096, 0x80 + n / 64 % 64, 0x80 + n % 64]
  else [0xF0 + n / 262144, 0x80 + n / 4096 % 64, 0x80 + n / 64 % 64, 0x80 + n % 64]

/-- Ranges of bytes that stand one behind the other. -/
abbrev ByteRanges := List (Nat × Nat)

/-- Splits a range of code points with equally many bytes until every byte ranges on its own: where
a byte changes, those behind it run through all their values. -/
def aligned : Nat → Nat × Nat → List (Nat × Nat)
  | 0, r => [r]
  | n + 1, (low, high) =>
    let isRagged (unit : Nat) : Bool :=
      low / unit != high / unit && (low % unit != 0 || high % unit != unit - 1)
    match [64, 4096, 262144].find? isRagged with
    | none => [(low, high)]
    | some unit =>
      let border := if low % unit != 0 then low - low % unit + unit else high - high % unit
      aligned n (low, border - 1) ++ aligned n (border, high)

def lengthClasses : List (Nat × Nat) :=
  [(0, 0x7F), (0x80, 0x7FF), (0x800, 0xD7FF), (0xE000, 0xFFFF), (0x10000, 0x10FFFF)]

def sequences (r : Nat × Nat) : List ByteRanges :=
  let pieces := lengthClasses.filterMap fun c =>
    let low := max r.1 c.1
    let high := min r.2 c.2
    if low ≤ high then some (low, high) else none
  let split (p : Nat × Nat) : List (Nat × Nat) := if p.2 < 0x80 then [p] else aligned 16 p
  (pieces.flatMap split).map fun p => (utf8 p.1).zip (utf8 p.2)

def commonLength : ByteRanges → ByteRanges → Nat
  | a :: as, b :: bs => if a == b then commonLength as bs + 1 else 0
  | _, _ => 0

def beginnings : ByteRanges → List ByteRanges → Nat
  | _, [] => 0
  | last, s :: rest => s.length - commonLength last s + beginnings s rest

def branches : List ByteRanges → List (List ByteRanges)
  | (a :: as) :: (b :: bs) :: rest =>
    match branches ((b :: bs) :: rest) with
    | group :: more => if a == b then (as :: group) :: more else [as] :: group :: more
    | [] => [[as]]
  | [_ :: as] => [[as]]
  | _ => []

/-- All that may be left to read on the way through sequences of at most `n` ranges. -/
def remainders : Nat → List ByteRanges → List (List ByteRanges)
  | 0, _ => []
  | n + 1, seqs =>
    seqs :: ((branches seqs).filter fun b => b != [[]]).flatMap (remainders n)

/-- The room for one of several characters. Forwards, states with the same remainder are one;
backwards, states are shared by sequences that begin alike. -/
def setSize (backward : Bool) (s : CodePoints) : Nat :=
  match s.ranges with
  | [] => stateSize
  | ranges =>
    match ranges with
    | [(a, b)] =>
      if a == b then stateSize * (utf8 a).length else several ranges
    | _ => several ranges
where
  several (ranges : List (Nat × Nat)) : Nat :=
    if ranges.all fun r => r.2 < 0x80 then 2 * stateSize + rangeSize * ranges.length
    else
      let seqs := ranges.flatMap sequences
      if backward then stateSize * (2 + beginnings [] seqs) + waySize * seqs.length
      else
        let states := (remainders 4 seqs).eraseDups
        stateSize * (states.length + 1) +
          rangeSize * states.foldl (fun n s => n + (branches s).length) 0

/-- The fewest characters that a node matches, if it matches at all. -/
def Node.least? : Node → Option Nat
  | .empty => some 0
  | .chars s => if s.isEmpty then none else some 1
  | .look _ => some 0
  | .seq a b => do return (← a.least?) + (← b.least?)
  | .alt a b => do return Nat.min (← a.least?) (← b.least?)
  | .times min _ a => do return min * (← a.least?)
  | .group a => a.least?

structure Room where
  /-- The bytes of the alternatives without what joins them. -/
  bytes : Nat
  ways : Nat := 1
  /-- The texts that the alternatives are, if all are plain text. -/
  texts : Option (List (List Nat)) := none

/-- The beginnings of texts at which something is left to read. -/
def openBeginnings (texts : List (List Nat)) : List (List Nat) :=
  (texts.flatMap fun t => (List.range t.length).map t.take).eraseDups

/-- The room for plain texts, of which those that begin alike share states. -/
def textsSize (backward : Bool) (texts : List (List Nat)) : Nat :=
  let texts := if backward then texts.map List.reverse else texts
  let stops := openBeginnings texts
  let sizeAt (stop : List Nat) : Nat :=
    let next := ((texts.filter fun t => stop.isPrefixOf t).filterMap fun t => t[stop.length]?)
    let count := next.eraseDups.length
    2 * stateSize + waySize + (if count == 1 then 0 else rangeSize * count)
  stops.foldl (fun n stop => n + sizeAt stop) stateSize

def Room.total (backward : Bool) (r : Room) : Nat :=
  if r.ways == 1 then r.bytes
  else
    match r.texts with
    | some texts => textsSize backward texts
    | none => r.bytes + 2 * stateSize + waySize * r.ways

def Node.room (backward : Bool) : Node → Room
  | .empty => { bytes := stateSize }
  | .look _ => { bytes := stateSize }
  | .chars s =>
    let text :=
      match s.ranges with
      | [(a, b)] => if a == b then some [utf8 a] else none
      | _ => none
    { bytes := setSize backward s, texts := text }
  | .seq a b =>
    let first := a.room backward
    let second := b.room backward
    let text :=
      match first.texts, second.texts with
      | some [s], some [t] => some [s ++ t]
      | _, _ => none
    { bytes := first.total backward + second.total backward, texts := text }
  | .alt a b =>
    let first := a.room backward
    let second := b.room backward
    { bytes := first.bytes + second.bytes
      ways := first.ways + second.ways
      texts := do return (← first.texts) ++ (← second.texts) }
  | .group a =>
    let one := (a.room backward).total backward
    { bytes := if backward then one else one + 2 * stateSize }
  | .times min max a =>
    let one := (a.room backward).total backward
    let loop := stateSize + 2 * waySize
    match min, max with
    | 0, none =>
      if a.least?.any (0 < ·) then { bytes := one + loop }
      else { bytes := one + 2 * loop + stateSize }
    | 0, some 1 => { bytes := one + loop + stateSize }
    | least, none => { bytes := least * one + loop }
    | least, some most =>
      let always := if least == 0 then stateSize else least * one
      let maybe := if most == least then 0 else stateSize + (most - least) * (loop + one)
      { bytes := always + maybe }

/-- The bytes that a compiled pattern takes. Reading forwards, it keeps the ends of all groups, of
which the whole is one. -/
def Node.size (r : Node) : Nat :=
  let forward := (r.room false).total false + 4 * stateSize
  let backward := (r.room true).total true + 2 * stateSize
  Nat.max forward backward

end RecordViews.Pattern
