import RecordViews.Pattern.Property

/-!
Where texts are cut: the kinds of characters that decide on the borders of what a reader takes for
one character, of words and of sentences.
-/

namespace RecordViews.Pattern

open Text (CodePoints)

def scriptPoints (name : String) : CodePoints :=
  (script? name).getD {}

def joiner : CodePoints :=
  CodePoints.singleton 0x200D

/-- Signs in front of a number that they belong to; the abbreviation mark is a letter. -/
def numberSigns : CodePoints :=
  (tabled "pcm").diff (CodePoints.singleton 0x70F)

def loneMarks : CodePoints :=
  CodePoints.ofGaps
    "4139 2 11 1 41 3 2 7 21 1 3 6 2 1 10 3 2500 1 1 2 36886 1 1 1 27810 2"

def leadingLetters : CodePoints :=
  CodePoints.ofGaps "4352 96 38912 29"

def vowelLetters : CodePoints :=
  CodePoints.ofGaps "4448 72 50696 23 38300 1 3 4"

def trailingLetters : CodePoints :=
  CodePoints.ofGaps "4520 88 50635 49"

/-- Syllables; every 28th of them has no trailing letter. -/
def syllables (trailing : Bool) : CodePoints :=
  let unclosed := CodePoints.ofList ((List.range 399).map fun i => 0xAC00 + 28 * i)
  if trailing then (CodePoints.ofRanges [(0xAC00, 0xD7A3)]).diff unclosed else unclosed

def prepended : CodePoints :=
  CodePoints.ofGaps
    "1536 6 215 1 49 1 384 2 80 1 1131 1 66414 1 15 1 244 2 525 1 1389 1 1 1 248 1 73 6 700 1 443 1"

def clusterExtenders : CodePoints :=
  extenders.union (tabled "emod")

def clusterControls : CodePoints :=
  let invisible := (points [.unassigned]).inter (tabled "di")
  ((points [.lineSeparator, .paragraphSeparator, .control, .format]).union invisible).diff
    (((CodePoints.ofRanges [(10, 10), (13, 13), (0x200C, 0x200D)]).union (tabled "pcm")).union
      clusterExtenders)

/-- A kind of character at the border of what a reader takes for one. -/
def graphemeBreak? (name : String) : Option CodePoints :=
  match name with
  | "cr" => some (CodePoints.singleton 13)
  | "lf" => some (CodePoints.singleton 10)
  | "cn" | "control" => some clusterControls
  | "ex" | "extend" => some clusterExtenders
  | "zwj" => some joiner
  | "ri" | "regionalindicator" => some (tabled "ri")
  | "pp" | "prepend" => some prepended
  | "sm" | "spacingmark" =>
    some ((((points [.spacingMark]).union (CodePoints.ofList [0xE33, 0xEB3])).diff
      clusterExtenders).diff loneMarks)
  | "l" => some leadingLetters
  | "v" => some vowelLetters
  | "t" => some trailingLetters
  | "lv" => some (syllables false)
  | "lvt" => some (syllables true)
  | _ => none

def wordExtenders : CodePoints :=
  ((extenders.union (points [.spacingMark])).union (tabled "emod")).diff joiner

def wordFormats : CodePoints :=
  ((points [.format]).diff ((CodePoints.ofRanges [(0x200B, 0x200D)]).union (tabled "pcm"))).diff
    wordExtenders

def katakana : CodePoints :=
  ((scriptPoints "kana").union (CodePoints.ofGaps "12337 5 101 2 3 1 91 1 52851 1")).diff
    wordExtenders

def hebrewLetters : CodePoints :=
  (scriptPoints "hebr").inter (points [.otherLetter])

/-- Letters of scripts that write words without blanks between them. -/
def unspacedLetters : CodePoints :=
  CodePoints.ofGaps <| String.join [
    "3585 48 1 2 12 7 58 2 1 1 1 5 1 24 1 1 1 10 1 2 9 1 2 5 1 1 21 4 288 43 20 1 16 6 4 4 3 1 3 ",
    "2 7 3 4 13 12 1 1777 52 35 1 4 1 371 30 2 5 11 44 4 26 86 53 82 1 36664 5 1 10 10 5 97 23 3 ",
    "1 3 50 1 1 3 2 2 5 2 1 1 1 24 3 27682 27 37 7"]

def letterSigns : CodePoints :=
  CodePoints.ofGaps
    "706 4 12 6 6 2 5 7 1 1 1 17 602 3 1 1 43 1 104 1 283 1 40952 15 9 2 103 2 976 1"

def wordLetters : CodePoints :=
  let others := [tabled "ideo", katakana, scriptPoints "hira", wordExtenders, hebrewLetters,
    unspacedLetters]
  others.foldl CodePoints.diff (alphabetic.union letterSigns)

/-- Digits of any script with a value by their place, and what counts as one. -/
def digitsAndSigns : CodePoints :=
  ((points [.decimalDigit]).union numberSigns).union (CodePoints.singleton 0x66B)

def wordBreak? (name : String) : Option CodePoints :=
  match name with
  | "cr" => some (CodePoints.singleton 13)
  | "lf" => some (CodePoints.singleton 10)
  | "nl" | "newline" => some (CodePoints.ofRanges [(11, 12), (0x85, 0x85), (0x2028, 0x2029)])
  | "sq" | "singlequote" => some (CodePoints.singleton 39)
  | "dq" | "doublequote" => some (CodePoints.singleton 34)
  | "extend" => some wordExtenders
  | "fo" | "format" => some wordFormats
  | "zwj" => some joiner
  | "ri" | "regionalindicator" => some (tabled "ri")
  | "ka" | "katakana" => some katakana
  | "hl" | "hebrewletter" => some hebrewLetters
  | "le" | "aletter" => some wordLetters
  | "nu" | "numeric" => some digitsAndSigns
  | "ex" | "extendnumlet" => some ((points [.connector]).union (CodePoints.singleton 0x202F))
  | "mb" | "midnumlet" => some (CodePoints.ofGaps "46 1 8169 2 10 1 56877 1 180 1 6 1")
  | "ml" | "midletter" => some (CodePoints.ofGaps
    "58 1 124 1 719 1 471 1 148 1 6706 1 56811 1 65 1 196 1")
  | "mn" | "midnum" => some (CodePoints.ofGaps
    "44 1 14 1 834 1 522 1 130 2 94 1 395 1 6219 1 56779 1 3 1 59 1 3 1 183 1 14 1")
  | "wsegspace" => some (CodePoints.ofGaps "32 1 5727 1 2431 7 1 3 84 1 4000 1")
  | _ => none

def sentenceExtenders : CodePoints :=
  (extenders.union (points [.spacingMark])).union joiner

def sentenceLower : CodePoints :=
  (lowercase.diff (CodePoints.ofRanges [(0x10D0, 0x10FA), (0x10FD, 0x10FF)])).diff sentenceExtenders

def sentenceUpper : CodePoints :=
  ((points [.titleLetter]).union uppercase).diff
    (CodePoints.ofRanges [(0x1C90, 0x1CBA), (0x1CBD, 0x1CBF)])

/-- Signs that may end a sentence or an abbreviation. -/
def fullStops : CodePoints :=
  CodePoints.ofGaps "46 1 8181 1 56877 1 187 1"

def sentenceBreak? (name : String) : Option CodePoints :=
  match name with
  | "cr" => some (CodePoints.singleton 13)
  | "lf" => some (CodePoints.singleton 10)
  | "se" | "sep" => some (CodePoints.ofRanges [(0x85, 0x85), (0x2028, 0x2029)])
  | "ex" | "extend" => some sentenceExtenders
  | "fo" | "format" =>
    some ((points [.format]).diff (((CodePoints.ofRanges [(0x200C, 0x200D)]).union
      (tabled "pcm")).union sentenceExtenders))
  | "sp" => some (Text.blanks.diff (CodePoints.ofRanges
    [(10, 10), (13, 13), (0x85, 0x85), (0x2028, 0x2029)]))
  | "lo" | "lower" => some sentenceLower
  | "up" | "upper" => some sentenceUpper
  | "le" | "oletter" =>
    some ([sentenceLower, sentenceUpper, sentenceExtenders].foldl CodePoints.diff
      (alphabetic.union (CodePoints.ofList [0x5F3, 0x70F])))
  | "nu" | "numeric" => some (digitsAndSigns.union (CodePoints.singleton 0x66C))
  | "at" | "aterm" => some fullStops
  | "sc" | "scontinue" => some (CodePoints.ofGaps <| String.join [
    "44 2 12 2 834 1 478 1 174 2 490 1 4105 1 5 1 2058 2 4076 1 52750 2 1 2 28 2 29 2 2 ",
    "2 2 1 10 1 168 2 12 2 72 1"])
  | "st" | "sterm" => some ((tabled "sterm").diff fullStops)
  | "cl" | "close" =>
    some ((points [.openBracket, .closeBracket, .openQuote, .closeQuote]).union
      (CodePoints.ofGaps "34 1 4 1 10035 6 1695 2 4 3 2 1 116842 3"))
  | _ => none

end RecordViews.Pattern
