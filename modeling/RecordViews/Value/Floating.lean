import RecordViews.Value.Decimal

/-!
Binary floating numbers in exact arithmetic. A numeral is rounded to the nearest number of the
format, and a number is written with the fewest digits that read back to it.
-/

namespace RecordViews

/-- A format whose finite numbers are `m * 2 ^ q` with `m < 2 ^ precision` and
`lowest ≤ q ≤ highest`. -/
structure FloatFormat where
  precision : Nat
  lowest : Int
  highest : Int
deriving DecidableEq, Repr, Inhabited

inductive Floating where
  | notANumber
  | infinite (negative : Bool)
  | finite (negative : Bool) (m : Nat) (q : Int)
deriving DecidableEq, Repr, Inhabited

namespace FloatFormat

def single : FloatFormat := ⟨24, -149, 104⟩

def double : FloatFormat := ⟨53, -1074, 971⟩

/-- The integer nearest to a quotient; of two the even one. -/
def nearest (num den : Nat) : Nat :=
  let n := num / den
  let twice := 2 * (num % den)
  if den < twice || (twice == den && n % 2 == 1) then n + 1 else n

def scale (e : Int) (num den : Nat) : Nat × Nat :=
  (num * Nat.pow 2 e.toNat, den * Nat.pow 2 (-e).toNat)

/-- The exponent of the greatest power of two that is not above a positive quotient. -/
def binaryLog (num den : Nat) : Int :=
  let e : Int := (Nat.log2 num : Int) - Nat.log2 den
  let (a, b) := scale (-e) num den
  if a < b then e - 1 else e

/-- The number nearest to a positive quotient, unless that is too great for the format. -/
def round? (f : FloatFormat) (num den : Nat) : Option (Nat × Int) :=
  let q := max f.lowest (binaryLog num den - (f.precision - 1))
  let (a, b) := scale (-q) num den
  let m := nearest a b
  let (m, q) := if m == Nat.pow 2 f.precision then (m / 2, q + 1) else (m, q)
  if q ≤ f.highest then some (m, q) else none

/-- The number nearest to a decimal one. The powers of ten are compared with powers of eight first,
so that no exponent makes the arithmetic large. -/
def ofDecimal? (f : FloatFormat) (d : Decimal) : Option (Nat × Int) :=
  if d.digits == 0 || 3 * d.size < f.lowest then some (0, f.lowest)
  else if f.highest + f.precision ≤ 3 * (d.size - 1) then none
  else f.round? (d.digits * Nat.pow 10 d.exponent.toNat) (Nat.pow 10 (-d.exponent).toNat)

/-- The multiple of `10 ^ k` that reads back to `m * 2 ^ q`, if there is one: the nearer of the two
neighbours, the upper one if both are as near. Numbers that lie half way to a neighbour read back
to the even one of both; a power of two has its lower neighbour half as far away. -/
def onGrid? (f : FloatFormat) (m : Nat) (q k : Int) : Option Nat :=
  let unit := Nat.pow 2 (q - 2).toNat * Nat.pow 10 (-k).toNat
  let step := Nat.pow 2 (2 - q).toNat * Nat.pow 10 k.toNat
  let isEdge := m == Nat.pow 2 (f.precision - 1) && f.lowest < q
  let low := (4 * m - if isEdge then 1 else 2) * unit
  let high := (4 * m + 2) * unit
  let readsBack (c : Nat) : Bool :=
    if m % 2 == 0 then low ≤ c * step && c * step ≤ high else low < c * step && c * step < high
  let below := 4 * m * unit / step
  let rest := 4 * m * unit % step
  match readsBack below, readsBack (below + 1) with
  | true, true => some (if 2 * rest < step then below else below + 1)
  | true, false => some below
  | false, true => some (below + 1)
  | false, false => none

/-- The decimal number with the fewest digits that reads back to `m * 2 ^ q`: the multiple of the
greatest power of ten that has one. -/
def shortest (f : FloatFormat) (m : Nat) (q : Int) : Decimal :=
  let e := q + Nat.log2 m + 1
  let start := max (e / 3) (e / 4) + 1
  let found := (List.range (e.natAbs + f.precision)).findSome? fun (i : Nat) =>
    (f.onGrid? m q (start - i)).map fun c => (⟨c, start - i⟩ : Decimal)
  found.getD ⟨0, 0⟩

end FloatFormat

namespace Floating

/-- Reads a number: a numeral or a word for what is not finite, with a sign or without. -/
def ofText? (f : FloatFormat) (text : String) : Option Floating :=
  let (negative, body) := Decimal.sign text.toList
  let word := String.ofList (body.map Char.toLower)
  if word == "inf" || word == "infinity" then some (.infinite negative)
  else if word == "nan" then some .notANumber
  else
    (Decimal.ofNumeral? body).map fun d =>
      match f.ofDecimal? d with
      | some (m, q) => .finite negative m q
      | none => .infinite negative

def text (f : FloatFormat) : Floating → String
  | .notANumber => "NaN"
  | .infinite negative => (if negative then "-" else "") ++ "inf"
  | .finite negative m q =>
    (if negative then "-" else "") ++ if m == 0 then "0" else (f.shortest m q).text

end Floating

end RecordViews
