import RecordViews.Value.Floating
import RecordViews.Value.Integer

/-!
Numbers, truth values, dates and times of a TOML document. Only which texts are such values
matters.
-/

namespace RecordViews.Toml

open Decimal (isDigit)

/-- Digits of a kind; underscores may stand between two of them. -/
def isDigits (p : Char → Bool) : List Char → Bool
  | [] => false
  | [c] => p c
  | c :: '_' :: rest => p c && isDigits p rest
  | c :: rest => p c && isDigits p rest

def withoutSign : List Char → List Char
  | '+' :: rest => rest
  | '-' :: rest => rest
  | s => s

def isWhole (s : List Char) : Bool :=
  isDigits isDigit s && (s.head? != some '0' || s.length == 1)

def digitValue (c : Char) : Nat :=
  if isDigit c then c.toNat - 48 else (c.toLower.toNat - 97) + 10

def isBased (base : Nat) (s : List Char) : Bool :=
  isDigits (fun c => (isDigit c || c.isAlpha) && digitValue c < base) s &&
    IntegerFormat.signed64.contains
      ((s.filter (· != '_')).foldl (fun n c => n * base + digitValue c) 0 : Nat)

def isInteger (s : List Char) : Bool :=
  match s with
  | '0' :: 'x' :: rest => isBased 16 rest
  | '0' :: 'o' :: rest => isBased 8 rest
  | '0' :: 'b' :: rest => isBased 2 rest
  | _ =>
    isWhole (withoutSign s) &&
      (Decimal.integer? (s.filter (· != '_'))).any IntegerFormat.signed64.contains

def isExponent : List Char → Bool
  | [] => true
  | c :: rest => (c == 'e' || c == 'E') && isDigits isDigit (withoutSign rest)

/-- A number with a fraction or an exponent that is not above all finite ones, or a word for what is
not finite. -/
def isFloat (s : List Char) : Bool :=
  let body := withoutSign s
  let isDigitOrGap (c : Char) : Bool := isDigit c || c == '_'
  let whole := body.takeWhile isDigitOrGap
  let rest := body.dropWhile isDigitOrGap
  let hasShape := isWhole whole && match rest with
    | '.' :: more =>
      isDigits isDigit (more.takeWhile isDigitOrGap) && isExponent (more.dropWhile isDigitOrGap)
    | [] => false
    | _ => isExponent rest
  let word := String.ofList body
  let isFinite := match Floating.ofText? .double (String.ofList (s.filter (· != '_'))) with
    | some (.infinite false) | none => false
    | some _ => true
  word == "inf" || word == "nan" || (hasShape && isFinite)

/-- The number of so many digits at the start, and what follows them. -/
def digitsAt? (n : Nat) (s : List Char) : Option (Nat × List Char) :=
  let taken := s.take n
  if taken.length == n && taken.all isDigit then some (Decimal.value taken, s.drop n) else none

def past? (c : Char) : List Char → Option (List Char)
  | d :: rest => if c == d then some rest else none
  | [] => none

def daysIn (year month : Nat) : Nat :=
  let isLeap := (year % 4 == 0 && year % 100 != 0) || year % 400 == 0
  if month == 2 then (if isLeap then 29 else 28)
  else if [4, 6, 9, 11].contains month then 30
  else 31

def afterDate? (s : List Char) : Option (List Char) := do
  let (year, s) ← digitsAt? 4 s
  let (month, s) ← digitsAt? 2 (← past? '-' s)
  let (day, s) ← digitsAt? 2 (← past? '-' s)
  if 1 ≤ month && month ≤ 12 && 1 ≤ day && day ≤ daysIn year month then some s else none

def afterMinute? (s : List Char) : Option (List Char) := do
  let (hour, s) ← digitsAt? 2 s
  let (minute, s) ← digitsAt? 2 (← past? ':' s)
  if hour < 24 && minute < 60 then some s else none

def afterTime? (s : List Char) : Option (List Char) := do
  let (second, s) ← digitsAt? 2 (← past? ':' (← afterMinute? s))
  if 60 < second then none
  match s with
  | '.' :: rest => if rest.head?.any isDigit then some (rest.dropWhile isDigit) else none
  | _ => some s

def isOffset : List Char → Bool
  | [] => true
  | ['Z'] | ['z'] => true
  | '+' :: rest | '-' :: rest => afterMinute? rest == some []
  | _ => false

def isDate (s : List Char) : Bool := afterDate? s == some []

def isOffsetTime (s : List Char) : Bool := (afterTime? s).any isOffset

def isTime (s : List Char) : Bool := afterTime? s == some []

def isDateTime (s : List Char) : Bool :=
  match afterDate? s with
  | some (c :: rest) => (c == 'T' || c == 't') && isOffsetTime rest
  | _ => false

def isScalarChar (c : Char) : Bool :=
  c.isAlphanum || c == '_' || c == '+' || c == '-' || c == '.' || c == ':'

/-- A value without quotes or brackets, blanks apart. -/
def isScalar (s : List Char) : Bool :=
  ["true", "false"].contains (String.ofList s) || isInteger s || isFloat s || isDate s ||
    isTime s || isDateTime s

end RecordViews.Toml
