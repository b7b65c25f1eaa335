/-!
Tokens of source text. A stream is flat: a group is an opening token, its contents and the closing
token. A punctuation mark is joint when it forms one operator with the mark after it.
-/

namespace RecordViews

/-- What encloses a group. Angles enclose generic arguments and parameters; only the grammar
knows them as a group, the lexer reads two marks. -/
inductive Delimiter where
  | paren | bracket | brace | angle
deriving DecidableEq, Repr, Inhabited

inductive Token where
  | ident (name : String)
  | punct (mark : Char) (joint : Bool)
  | literal (text : String)
  | opening (d : Delimiter)
  | closing (d : Delimiter)
deriving DecidableEq, Repr, Inhabited

abbrev Tokens := List Token

namespace Token

/-- An operator of several marks: every mark but the last is joint. -/
def operator : List Char → Tokens
  | [] => []
  | [c] => [.punct c false]
  | c :: rest => .punct c true :: operator rest

/-- The tokens of one word of a template: an operator, a bracket, a lifetime or an identifier. -/
def ofWord : List Char → Tokens
  | ['('] => [.opening .paren]
  | [')'] => [.closing .paren]
  | ['['] => [.opening .bracket]
  | [']'] => [.closing .bracket]
  | ['\x7b'] => [.opening .brace]
  | ['\x7d'] => [.closing .brace]
  | '\'' :: name => [.punct '\'' true, .ident (String.ofList name)]
  | c :: rest =>
    if c.isAlpha || c == '_' then [.ident (String.ofList (c :: rest))] else operator (c :: rest)
  | [] => []

def splitBlanks : List Char → List (List Char)
  | [] => [[]]
  | c :: rest =>
    match splitBlanks rest with
    | [] => [[c]]
    | w :: ws => if c == ' ' then [] :: w :: ws else (c :: w) :: ws

end Token

/-- The tokens of a template whose words stand one blank apart. -/
def words (template : String) : Tokens :=
  (Token.splitBlanks template.toList).flatMap Token.ofWord

namespace Tokens

def enclose (d : Delimiter) (inner : Tokens) : Tokens :=
  .opening d :: inner ++ [.closing d]

def parens (inner : Tokens) : Tokens := enclose .paren inner
def brackets (inner : Tokens) : Tokens := enclose .bracket inner
def braces (inner : Tokens) : Tokens := enclose .brace inner

def comma : Tokens := [.punct ',' false]

def lifetime (name : String) : Tokens := [.punct '\'' true, .ident name]

def commaSeparated (parts : List Tokens) : Tokens :=
  (parts.intersperse comma).flatten

def commaTerminated (parts : List Tokens) : Tokens :=
  parts.flatMap (· ++ comma)

end Tokens

end RecordViews
