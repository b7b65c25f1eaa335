import RecordViews.Text.Category

/-!
Quoted strings. `quote` writes a string with the escapes that keep it on one visible line; the
apostrophe needs none. `unquote?` reads the contents of a quoted string back.
-/

namespace RecordViews.Text

/-- The digits of `n` in lower-case hexadecimal. -/
def hexDigits (n : Nat) : List Char :=
  Nat.toDigits 16 n

def unicodeEscape (c : Char) : List Char :=
  ['\\', 'u', '\x7b'] ++ hexDigits c.toNat ++ ['\x7d']

/-- A character inside quotes, given the text after it. NUL is written so that a following octal
digit does not become part of it. -/
def escapeChar (c : Char) (next : List Char) : List Char :=
  match c with
  | '\x00' =>
    match next with
    | d :: _ => if '0' ≤ d && d ≤ '7' then "\\x00".toList else "\\0".toList
    | [] => "\\0".toList
  | '\t' => "\\t".toList
  | '\r' => "\\r".toList
  | '\n' => "\\n".toList
  | '\\' => "\\\\".toList
  | '"' => "\\\"".toList
  | c => if isExtender c || !isVisible c then unicodeEscape c else [c]

def escape : List Char → List Char
  | [] => []
  | c :: rest => escapeChar c rest ++ escape rest

def quote (s : String) : String :=
  String.ofList ('"' :: escape s.toList ++ ['"'])

def hexValue? (c : Char) : Option Nat :=
  if '0' ≤ c && c ≤ '9' then some (c.toNat - 48)
  else if 'a' ≤ c && c ≤ 'f' then some (c.toNat - 87)
  else if 'A' ≤ c && c ≤ 'F' then some (c.toNat - 55)
  else none

def bracedChar : Nat → List Char → Option (Char × List Char)
  | value, '\x7d' :: rest => some (Char.ofNat value, rest)
  | value, '_' :: rest => bracedChar value rest
  | value, c :: rest => (hexValue? c).bind fun d => bracedChar (value * 16 + d) rest
  | _, [] => none

def isLineBlank (c : Char) : Bool :=
  c == ' ' || c == '\t' || c == '\n' || c == '\r'

/-- Reads the contents of a quoted string up to the closing quote. A backslash at the end of a line
joins it to the next one without its indentation. -/
def unescape : Nat → List Char → List Char
  | 0, _ => []
  | _ + 1, [] => []
  | _ + 1, '"' :: _ => []
  | n + 1, '\r' :: '\n' :: rest => '\n' :: unescape n rest
  | n + 1, '\\' :: c :: rest =>
    match c with
    | 'n' => '\n' :: unescape n rest
    | 'r' => '\r' :: unescape n rest
    | 't' => '\t' :: unescape n rest
    | '0' => '\x00' :: unescape n rest
    | 'x' =>
      match rest with
      | a :: b :: more =>
        Char.ofNat ((hexValue? a).getD 0 * 16 + (hexValue? b).getD 0) :: unescape n more
      | _ => []
    | 'u' =>
      match bracedChar 0 (rest.drop 1) with
      | some (d, more) => d :: unescape n more
      | none => []
    | '\n' | '\r' => unescape n (rest.dropWhile isLineBlank)
    | c => c :: unescape n rest
  | n + 1, c :: rest => c :: unescape n rest

/-- The contents of a raw string: between its quotes, which have as many marks outside. -/
def rawContents (s : List Char) : List Char :=
  let marks := (s.takeWhile (· == '#')).length
  let body := s.drop (marks + 1)
  let rec go : List Char → List Char
    | [] => []
    | '"' :: rest =>
      if (rest.take marks).all (· == '#') && marks ≤ rest.length then [] else '"' :: go rest
    | c :: rest => c :: go rest
  go body

/-- The string that a literal stands for, if it is a string literal. -/
def stringValue? (literal : String) : Option String :=
  match literal.toList with
  | '"' :: rest => some (String.ofList (unescape rest.length rest))
  | 'r' :: rest => some (String.ofList (rawContents rest))
  | _ => none

def suffix (literal : String) : String :=
  String.ofList (literal.toList.reverse.takeWhile fun c => c != '"' && c != '#').reverse

end RecordViews.Text
