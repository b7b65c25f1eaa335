import RecordViews.Token.Lexer

/-!
Number literals that stand for whole numbers: their value, and the word they end in, such as the
name of a type. Underscores between digits mean nothing.
-/

namespace RecordViews

structure WholeNumber where
  value : Nat
  /-- The word behind the digits; empty if there is none. -/
  suffix : String
deriving DecidableEq, Repr, Inhabited

namespace WholeNumber

/-- What is behind the mark of an exponent makes it one: a sign, or a digit. -/
def isExponent (s : List Char) : Bool :=
  let isPart (c : Char) : Bool := Lexer.isDigit c || c == '_'
  let after := s.dropWhile isPart
  after.head? == some '+' || after.head? == some '-' || (s.takeWhile isPart).any Lexer.isDigit

/-- The value of a digit; letters are digits only beyond base ten. -/
def digit? (base : Nat) (c : Char) : Option Nat :=
  if Lexer.isDigit c then some (c.toNat - 48)
  else if base ≤ 10 then none else Text.hexValue? c

/-- Reads the digits behind the mark of a base; `seen` once there was one. -/
def digits? (base value : Nat) (seen : Bool) : List Char → Option WholeNumber
  | [] => if seen then some ⟨value, ""⟩ else none
  | c :: rest =>
    if c == '_' then digits? base value seen rest
    else if base == 10 && (c == '.' || ((c == 'e' || c == 'E') && isExponent rest)) then none
    else
      match digit? base c with
      | some d => if base ≤ d then none else digits? base (value * base + d) true rest
      | none => if seen then some ⟨value, String.ofList (c :: rest)⟩ else none

/-- The whole number that a literal stands for; `none` for every other literal. -/
def ofLiteral? (text : String) : Option WholeNumber :=
  match text.toList with
  | '0' :: 'x' :: rest => digits? 16 0 false rest
  | '0' :: 'o' :: rest => digits? 8 0 false rest
  | '0' :: 'b' :: rest => digits? 2 0 false rest
  | c :: rest => if Lexer.isDigit c then digits? 10 0 false (c :: rest) else none
  | [] => none

end WholeNumber

end RecordViews
