import RecordViews.Text.Quoted
import RecordViews.Token.Basic

/-!
From source text to tokens. Comments vanish, except documentation comments, which become
attributes. Each token keeps how many characters were left where it starts, from which its line
and column follow.
-/

namespace RecordViews

/-- A token and the number of characters from its start to the end of the text. -/
structure Placed where
  token : Token
  left : Nat
deriving Repr, Inhabited

namespace Lexer

open Text

def startsWith (s : List Char) (start : String) : Bool :=
  start.toList.isPrefixOf s

/-- The characters that `s` has before its tail `rest`. -/
def consumed (s rest : List Char) : List Char :=
  s.take (s.length - rest.length)

def restOfLine : List Char → List Char × List Char
  | [] => ([], [])
  | '\n' :: rest => ([], '\n' :: rest)
  | '\r' :: '\n' :: rest => ([], '\n' :: rest)
  | c :: rest => ((restOfLine rest).1.cons c, (restOfLine rest).2)

/-- The text after a block comment; comments nest. -/
def blockComment? : Nat → List Char → Option (List Char)
  | depth, '/' :: '*' :: rest => blockComment? (depth + 1) rest
  | depth, '*' :: '/' :: rest =>
    match depth with
    | 0 => none
    | 1 => some rest
    | d + 1 => blockComment? d rest
  | depth, _ :: rest => blockComment? depth rest
  | _, [] => none

def isPlainLineComment (s : List Char) : Bool :=
  startsWith s "//" && (!startsWith s "///" || startsWith s "////") && !startsWith s "//!"

def isPlainBlockComment (s : List Char) : Bool :=
  startsWith s "/*" && (!startsWith s "/**" || startsWith s "/***") && !startsWith s "/*!"

/-- Skips blanks and the comments that are no documentation. -/
def skipBlanks : Nat → List Char → List Char
  | 0, s => s
  | _ + 1, [] => []
  | n + 1, c :: rest =>
    let s := c :: rest
    if isPlainLineComment s then skipBlanks n (restOfLine s).2
    else if startsWith s "/**/" then skipBlanks n (s.drop 4)
    else if isPlainBlockComment s then
      match blockComment? 0 s with
      | some after => skipBlanks n after
      | none => s
    else if isSpacing c then skipBlanks n rest
    else s

def hasBareReturn : List Char → Bool
  | [] => false
  | '\r' :: '\n' :: rest => hasBareReturn rest
  | '\r' :: _ => true
  | _ :: rest => hasBareReturn rest

/-- The text of a documentation comment, whether it is about what encloses it, and what follows. -/
def docComment? (s : List Char) : Option (List Char × Bool × List Char) :=
  let block (inner : Bool) : Option (List Char × Bool × List Char) :=
    (blockComment? 0 s).map fun after =>
      let text := (consumed s after).drop 3
      (text.take (text.length - 2), inner, after)
  let line (inner : Bool) : List Char × Bool × List Char :=
    let (text, after) := restOfLine (s.drop 3)
    (text, inner, after)
  let found :=
    if startsWith s "//!" then some (line true)
    else if startsWith s "/*!" then block true
    else if startsWith s "///" then (if startsWith s "////" then none else some (line false))
    else if startsWith s "/**" && !startsWith s "/***" then block false
    else none
  found.filter fun (text, _, _) => !hasBareReturn text

def name? : List Char → Option (List Char × List Char)
  | c :: rest =>
    if isIdentifierStart c then
      some (c :: rest.takeWhile isIdentifierContinue, rest.dropWhile isIdentifierContinue)
    else none
  | [] => none

/-- Words that stand for a place or nothing and are never raw. -/
def neverRaw : List String := ["_", "super", "self", "Self", "crate"]

def identifier? (s : List Char) : Option (List Char × List Char) :=
  if startsWith s "r#" then
    match name? (s.drop 2) with
    | some (name, rest) =>
      if neverRaw.contains (String.ofList name) then none else some ('r' :: '#' :: name, rest)
    | none => none
  else name? s

/-- What starts a quoted literal and so is no identifier. -/
def literalStarts : List String :=
  ["r\"", "r#\"", "r##", "b\"", "b'", "br\"", "br#", "c\"", "cr\"", "cr#"]

/-- A literal may end in a word, such as the name of its type. -/
def skipSuffix (s : List Char) : List Char :=
  match name? s with
  | some (_, rest) => rest
  | none => s

/-- What the escapes and characters of a kind of quoted literal may be. -/
structure QuoteRules where
  asciiHex : Bool
  unicode : Bool
  zero : Bool
  wide : Bool

def QuoteRules.text : QuoteRules := ⟨true, true, true, true⟩
def QuoteRules.bytes : QuoteRules := ⟨false, false, true, false⟩
def QuoteRules.terminated : QuoteRules := ⟨false, true, false, true⟩

def isScalar (n : Nat) : Bool :=
  n < 0xD800 || (0xDFFF < n && n ≤ 0x10FFFF)

def bracedEscape? (rules : QuoteRules) : Nat → Nat → List Char → Option (List Char)
  | len, value, c :: rest =>
    match hexValue? c with
    | some d => if len == 6 then none else bracedEscape? rules (len + 1) (value * 16 + d) rest
    | none =>
      if c == '_' && 0 < len then bracedEscape? rules len value rest
      else if c == '\x7d' && 0 < len && isScalar value && (rules.zero || value != 0) then some rest
      else none
  | _, _, [] => none

/-- The text after the escape whose backslash has been read; line continuations are no escapes. -/
def escape? (rules : QuoteRules) : List Char → Option (List Char)
  | 'x' :: a :: b :: rest => do
    let high ← hexValue? a
    let low ← hexValue? b
    if rules.asciiHex && 8 ≤ high then none
    else if !rules.zero && high == 0 && low == 0 then none
    else some rest
  | 'u' :: '\x7b' :: rest => if rules.unicode then bracedEscape? rules 0 0 rest else none
  | '0' :: rest => if rules.zero then some rest else none
  | c :: rest => if ['n', 'r', 't', '\\', '\'', '"'].contains c then some rest else none
  | [] => none

/-- Skips the blanks after a backslash at the end of a line; a carriage return needs its line feed,
and some text must follow. -/
def joinedLine? : List Char → Option (List Char)
  | ' ' :: rest | '\t' :: rest | '\n' :: rest => joinedLine? rest
  | '\r' :: '\n' :: rest => joinedLine? rest
  | '\r' :: _ => none
  | [] => none
  | rest => some rest

/-- The text after the closing quote of a string whose opening quote has been read. -/
def quotedBody? (rules : QuoteRules) : Nat → List Char → Option (List Char)
  | 0, _ => none
  | _ + 1, [] => none
  | _ + 1, '"' :: rest => some (skipSuffix rest)
  | n + 1, '\r' :: rest =>
    match rest with
    | '\n' :: more => quotedBody? rules n more
    | _ => none
  | n + 1, '\\' :: rest =>
    match rest with
    | '\n' :: _ | '\r' :: _ => (joinedLine? rest).bind (quotedBody? rules n)
    | _ => (escape? rules rest).bind (quotedBody? rules n)
  | n + 1, c :: rest =>
    if (!rules.wide && 128 ≤ c.toNat) || (!rules.zero && c == '\x00') then none
    else quotedBody? rules n rest

/-- The text after a raw string from its marks on; up to 255 of them are allowed. -/
def rawString? (rules : QuoteRules) (s : List Char) : Option (List Char) :=
  let marks := s.takeWhile (· == '#')
  let rec body : List Char → Option (List Char)
    | [] => none
    | '"' :: rest =>
      if marks.isPrefixOf rest then some (skipSuffix (rest.drop marks.length)) else body rest
    | '\r' :: '\n' :: rest => body rest
    | '\r' :: _ => none
    | c :: rest =>
      if (!rules.wide && 128 ≤ c.toNat) || (!rules.zero && c == '\x00') then none else body rest
  match s.drop marks.length with
  | '"' :: rest => if marks.length ≤ 255 then body rest else none
  | _ => none

def string? : List Char → Option (List Char)
  | '"' :: rest => quotedBody? .text (rest.length + 1) rest
  | 'r' :: rest => rawString? .text rest
  | 'b' :: '"' :: rest => quotedBody? .bytes (rest.length + 1) rest
  | 'b' :: 'r' :: rest => rawString? .bytes rest
  | 'c' :: '"' :: rest => quotedBody? .terminated (rest.length + 1) rest
  | 'c' :: 'r' :: rest => rawString? .terminated rest
  | _ => none

def character? (rules : QuoteRules) (s : List Char) : Option (List Char) :=
  let afterOne :=
    match s with
    | '\\' :: rest => escape? rules rest
    | c :: rest => if !rules.wide && 128 ≤ c.toNat then none else some rest
    | [] => none
  match afterOne with
  | some ('\'' :: rest) => some (skipSuffix rest)
  | _ => none

def isDigit (c : Char) : Bool :=
  '0' ≤ c && c ≤ '9'

def wordEnd? (s : List Char) : Option (List Char) :=
  match s with
  | c :: _ => if isIdentifierContinue c then none else some s
  | [] => some s

/-- The digits of an exponent with their sign; `none` unless there is a digit, or when a second
sign comes first. -/
def exponent? : Bool → Bool → List Char → Option (List Char)
  | signed, valued, c :: rest =>
    if c == '+' || c == '-' then
      if valued then some (c :: rest) else if signed then none else exponent? true valued rest
    else if isDigit c then exponent? signed true rest
    else if c == '_' then exponent? signed valued rest
    else if valued then some (c :: rest) else none
  | _, valued, [] => if valued then some [] else none

/-- The text after the digits of a number that has a point or an exponent. -/
def floatDigits? (s : List Char) : Option (List Char) :=
  let digits (s : List Char) : List Char := s.dropWhile fun c => isDigit c || c == '_'
  match s with
  | [] => none
  | first :: _ =>
    if !isDigit first then none
    else
      let afterWhole := digits s
      let fraction : Option (Option (List Char)) :=
        match afterWhole with
        | '.' :: rest =>
          match rest with
          | c :: _ =>
            if c == '.' || isIdentifierStart c then none else some (some (digits rest))
          | [] => some (some [])
        | _ => some none
      match fraction with
      | none => none
      | some afterFraction =>
        let beforeExponent := afterFraction.getD afterWhole
        match beforeExponent with
        | c :: rest =>
          if c == 'e' || c == 'E' then
            match exponent? false false rest with
            | some after => some after
            | none => afterFraction
          else afterFraction
        | [] => afterFraction

def numberEnd? (s : List Char) : Option (List Char) :=
  wordEnd? (skipSuffix s)

def float? (s : List Char) : Option (List Char) :=
  (floatDigits? s).bind numberEnd?

/-- The digits of a whole number in a base; letters beyond the base end it, digits beyond it are
refused. -/
def digits? (base : Nat) : Bool → List Char → Option (List Char)
  | empty, c :: rest =>
    if isDigit c then if base ≤ c.toNat - 48 then none else digits? base false rest
    else
      match hexValue? c with
      | some d =>
        if base ≤ d then (if empty then none else some (c :: rest)) else digits? base false rest
      | none =>
        if c == '_' then (if empty && base == 10 then none else digits? base empty rest)
        else if empty then none else some (c :: rest)
  | empty, [] => if empty then none else some []

def int? (s : List Char) : Option (List Char) :=
  let body :=
    match s with
    | '0' :: 'x' :: rest => digits? 16 true rest
    | '0' :: 'o' :: rest => digits? 8 true rest
    | '0' :: 'b' :: rest => digits? 2 true rest
    | s => digits? 10 true s
  body.bind numberEnd?

/-- The text after the literal at the start of `s`. -/
def literal? (s : List Char) : Option (List Char) :=
  let byte := match s with
    | 'b' :: '\'' :: rest => character? .bytes rest
    | _ => none
  let char := match s with
    | '\'' :: rest => character? .text rest
    | _ => none
  string? s <|> byte <|> char <|> float? s <|> int? s

def marks : List Char := "~!@#$%^&*-=+|;:,<.>/?'".toList

/-- Whether `s` starts with a mark rather than a comment. -/
def startsMark (s : List Char) : Bool :=
  match s with
  | c :: _ => marks.contains c && !startsWith s "//" && !startsWith s "/*"
  | [] => false

/-- The mark at the start of `s`. An apostrophe counts only before an identifier that no further
apostrophe or number sign closes, and is joint with it. -/
def punct? (s : List Char) : Option (Token × List Char) :=
  match s with
  | [] => none
  | c :: rest =>
    if !startsMark s then none
    else if c == '\'' then
      match identifier? rest with
      | some (_, after) =>
        match after with
        | '\'' :: _ => none
        | '#' :: _ => if startsWith rest "r#" then some (.punct c true, rest) else none
        | _ => some (.punct c true, rest)
      | none => none
    else some (.punct c (startsMark rest), rest)

/-- Stands for something that is no literal though it has the place of one. -/
def brokenLiteral : String := "(/*ERROR*/)"

/-- A token that is neither a bracket nor documentation. -/
def leaf? (s : List Char) : Option (Token × List Char) :=
  if startsWith s brokenLiteral then
    some (.literal brokenLiteral, s.drop brokenLiteral.length)
  else match literal? s with
  | some rest => some (.literal (String.ofList (consumed s rest)), rest)
  | none =>
    match punct? s with
    | some found => some found
    | none =>
      if literalStarts.any (startsWith s) then none
      else (identifier? s).map fun (name, rest) => (.ident (String.ofList name), rest)

def docTokens (text : List Char) (inner : Bool) : Tokens :=
  (if inner then words "# !" else words "#") ++
    Tokens.brackets (words "doc =" ++ [.literal (quote (String.ofList text))])

def opens? (s : List Char) : Option Delimiter :=
  match s with
  | '(' :: _ => if startsWith s brokenLiteral then none else some .paren
  | '[' :: _ => some .bracket
  | '\x7b' :: _ => some .brace
  | _ => none

def closes? : Char → Option Delimiter
  | ')' => some .paren
  | ']' => some .bracket
  | '\x7d' => some .brace
  | _ => none

/-- Reads tokens until the text ends; `stack` holds the groups still open, innermost first. -/
def tokens? : Nat → List Delimiter → List Char → Option (List Placed)
  | 0, _, _ => none
  | n + 1, stack, s =>
    let s := skipBlanks (s.length + 1) s
    match docComment? s with
    | some (text, inner, rest) =>
      (tokens? n stack rest).map ((docTokens text inner).map (⟨·, s.length⟩) ++ ·)
    | none =>
      match s with
      | [] => if stack.isEmpty then some [] else none
      | c :: rest =>
        match opens? s, closes? c with
        | some d, _ => (tokens? n (d :: stack) rest).map (⟨.opening d, s.length⟩ :: ·)
        | none, some d =>
          match stack with
          | top :: below =>
            if top == d then (tokens? n below rest).map (⟨.closing d, s.length⟩ :: ·) else none
          | [] => none
        | none, none =>
          match leaf? s with
          | some (t, rest) => (tokens? n stack rest).map (⟨t, s.length⟩ :: ·)
          | none => none

end Lexer

def byteOrderMark : Char := '\uFEFF'

/-- The tokens of a text, or `none` when it is no token stream. -/
def lex? (text : String) : Option (List Placed) :=
  let s := text.toList
  let s := if s.head? == some byteOrderMark then s.drop 1 else s
  Lexer.tokens? (s.length + 1) [] s

/-- The line, from 1, and column, from 0, at which `left` characters of the text are still to
come. -/
def position (text : String) (left : Nat) : Nat × Nat :=
  let before := text.toList.take (text.length - left)
  (1 + before.count '\n', (before.reverse.takeWhile (· != '\n')).length)

end RecordViews
