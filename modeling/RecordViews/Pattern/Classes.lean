import RecordViews.Pattern.Age
import RecordViews.Pattern.Segment

/-!
Named classes of characters.
-/

namespace RecordViews.Pattern

open Text (CodePoints Category)

def categoryNames : List (List String × List Category) := [
  (["l", "letter"], [.upperLetter, .lowerLetter, .titleLetter, .modifierLetter, .otherLetter]),
  (["lc", "casedletter"], [.upperLetter, .lowerLetter, .titleLetter]),
  (["lu", "uppercaseletter"], [.upperLetter]),
  (["ll", "lowercaseletter"], [.lowerLetter]),
  (["lt", "titlecaseletter"], [.titleLetter]),
  (["lm", "modifierletter"], [.modifierLetter]),
  (["lo", "otherletter"], [.otherLetter]),
  (["m", "mark", "combiningmark"], [.nonspacingMark, .spacingMark, .enclosingMark]),
  (["mn", "nonspacingmark"], [.nonspacingMark]),
  (["mc", "spacingmark"], [.spacingMark]),
  (["me", "enclosingmark"], [.enclosingMark]),
  (["n", "number"], [.decimalDigit, .letterNumber, .otherNumber]),
  (["nd", "decimalnumber", "digit"], [.decimalDigit]),
  (["nl", "letternumber"], [.letterNumber]),
  (["no", "othernumber"], [.otherNumber]),
  (["p", "punctuation", "punct"],
    [.connector, .dash, .openBracket, .closeBracket, .openQuote, .closeQuote, .otherPunctuation]),
  (["pc", "connectorpunctuation"], [.connector]),
  (["pd", "dashpunctuation"], [.dash]),
  (["ps", "openpunctuation"], [.openBracket]),
  (["pe", "closepunctuation"], [.closeBracket]),
  (["pi", "initialpunctuation"], [.openQuote]),
  (["pf", "finalpunctuation"], [.closeQuote]),
  (["po", "otherpunctuation"], [.otherPunctuation]),
  (["s", "symbol"], [.mathSymbol, .currencySymbol, .modifierSymbol, .otherSymbol]),
  (["sm", "mathsymbol"], [.mathSymbol]),
  (["sc", "currencysymbol"], [.currencySymbol]),
  (["sk", "modifiersymbol"], [.modifierSymbol]),
  (["so", "othersymbol"], [.otherSymbol]),
  (["z", "separator"], [.space, .lineSeparator, .paragraphSeparator]),
  (["zs", "spaceseparator"], [.space]),
  (["zl", "lineseparator"], [.lineSeparator]),
  (["zp", "paragraphseparator"], [.paragraphSeparator]),
  (["c", "other"], [.control, .format, .surrogate, .privateUse, .unassigned]),
  (["cc", "control", "cntrl"], [.control]),
  (["cf", "format"], [.format]),
  (["co", "privateuse"], [.privateUse]),
  (["cn", "unassigned"], [.unassigned])]

/-- A general category, or one of the three names that stand beside them. -/
def category? (name : String) : Option CodePoints :=
  match name with
  | "any" => some CodePoints.all
  | "ascii" => some (CodePoints.ofRanges [(0, 127)])
  | "assigned" => some (points [.unassigned]).complement
  | _ => (categoryNames.find? fun row => row.1.contains name).map fun row => points row.2

/-- The form in which names are compared: lower case, without blanks and bars, and without `is` in
front. -/
def normalise (name : List Char) : String :=
  let low := name.map Char.toLower
  let body :=
    match low with
    | 'i' :: 's' :: rest => rest
    | _ => low
  let kept := body.filter fun c => c.toNat < 128 && c != ' ' && c != '_' && c != '-'
  -- `isc` is the name of a category, not of the class `c`
  if low.length != body.length && kept == ['c'] then "isc" else String.ofList kept

def named? (name : List Char) : Option CodePoints :=
  let n := normalise name
  let first := if ["cf", "sc", "lc"].contains n then none else property? n
  first <|> category? n <|> script? n

def valued? (name value : List Char) : Option CodePoints :=
  let v := normalise value
  match normalise name with
  | "gc" | "generalcategory" => category? v
  | "sc" | "script" => script? v
  | "scx" | "scriptextensions" => scriptUse? v
  | "age" => age? v
  | "gcb" | "graphemeclusterbreak" => graphemeBreak? v
  | "wb" | "wordbreak" => wordBreak? v
  | "sb" | "sentencebreak" => sentenceBreak? v
  | _ => none

def ascii (ranges : List (Char × Char)) : CodePoints :=
  CodePoints.ofRanges (ranges.map fun r => (r.1.toNat, r.2.toNat))

/-- The classes of ASCII characters that are written between colons. -/
def asciiClass? (name : String) : Option CodePoints :=
  let upper := ('A', 'Z')
  let lower := ('a', 'z')
  let digit := ('0', '9')
  if name == "alnum" then some (ascii [digit, upper, lower])
  else if name == "alpha" then some (ascii [upper, lower])
  else if name == "ascii" then some (ascii [('\x00', '\x7f')])
  else if name == "blank" then some (ascii [('\t', '\t'), (' ', ' ')])
  else if name == "cntrl" then some (ascii [('\x00', '\x1f'), ('\x7f', '\x7f')])
  else if name == "digit" then some (ascii [digit])
  else if name == "graph" then some (ascii [('!', '~')])
  else if name == "lower" then some (ascii [lower])
  else if name == "print" then some (ascii [(' ', '~')])
  else if name == "punct" then some (ascii [('!', '/'), (':', '@'), ('[', '\x60'), ('\x7b', '~')])
  else if name == "space" then some (ascii [('\t', '\r'), (' ', ' ')])
  else if name == "upper" then some (ascii [upper])
  else if name == "word" then some (ascii [digit, upper, lower, ('_', '_')])
  else if name == "xdigit" then some (ascii [digit, ('A', 'F'), ('a', 'f')])
  else none

def wordPoints : CodePoints :=
  [known Text.marks, points [.decimalDigit, .connector], tabled "joinc"].foldl CodePoints.union
    alphabetic

def wordSet (unicode : Bool) : CodePoints :=
  if unicode then wordPoints else ascii [('0', '9'), ('A', 'Z'), ('_', '_'), ('a', 'z')]

def digitPoints : CodePoints :=
  points [.decimalDigit]

def digitSet (unicode : Bool) : CodePoints :=
  if unicode then digitPoints else ascii [('0', '9')]

def blankSet (unicode : Bool) : CodePoints :=
  if unicode then Text.blanks else ascii [('\t', '\r'), (' ', ' ')]

end RecordViews.Pattern
