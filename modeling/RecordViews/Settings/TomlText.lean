import RecordViews.Text.Quoted
import RecordViews.Text.Scanner

/-!
Strings and keys of a TOML document. Strings in quotation marks have escapes, strings in apostrophes
have none; three marks enclose a string of several lines.
-/

namespace RecordViews.Toml

open Text Text.Scanner

def isBlank (c : Char) : Bool := c == ' ' || c == '\t'

/-- A character that may stand in a comment or a string: a tab, or any that is no control
character. -/
def isPlain (c : Char) : Bool := c == '\t' || (' ' ≤ c && c != '\x7f')

def blanks : Scanner Unit := skip isBlank

/-- A line end: a line feed, with a carriage return before it or not. -/
def newline : Scanner Unit :=
  exactly "\n" <|> exactly "\r\n"

def codePoint (digits : Nat) : Scanner Char := do
  let ds ← exactRun (fun c => (hexValue? c).isSome) digits
  let n := ds.foldl (fun n d => n * 16 + (hexValue? d).getD 0) 0
  if n.isValidChar then return Char.ofNat n else failure

def escaped : Scanner Char := do
  match ← one fun _ => true with
  | 'b' => return '\x08'
  | 't' => return '\t'
  | 'n' => return '\n'
  | 'f' => return '\x0c'
  | 'r' => return '\r'
  | '"' => return '"'
  | '\\' => return '\\'
  | 'u' => codePoint 4
  | 'U' => codePoint 8
  | _ => failure

def basicString : Scanner String := do
  exactly "\""
  let chars ← loop [] fun done => do
    if ← sees "\"" then return (done, false)
    if ← sees "\\" then
      exactly "\\"
      return ((← escaped) :: done, true)
    return ((← one isPlain) :: done, true)
  exactly "\""
  return String.ofList chars.reverse

def literalString : Scanner String := do
  exactly "'"
  let chars ← run fun c => isPlain c && c != '\''
  exactly "'"
  return String.ofList chars

/-- The end of a string of several lines: three marks, behind up to two that belong to it. -/
def closing (mark : Char) : Scanner (List Char) := do
  let marks ← run (· == mark)
  if 3 ≤ marks.length && marks.length ≤ 5 then return marks.drop 3 else failure

/-- Skips the end of the line behind a backslash, and all blanks and line ends after it. -/
def joinedLines : Scanner Unit := do
  blanks
  newline
  loop () fun _ => do
    blanks
    if ← seesChar (fun c => c == '\n' || c == '\r') then
      newline
      return ((), true)
    return ((), false)

/-- A string of several lines, enclosed by three of `mark`; a line end right at its start does not
count. -/
def multilineString (mark : Char) : Scanner String := do
  let fence := String.ofList [mark, mark, mark]
  exactly fence
  if ← sees "\n" then exactly "\n" else if ← sees "\r\n" then exactly "\r\n"
  let chars ← loop [] fun done => do
    if ← sees fence then return (done, false)
    if mark == '"' && (← sees "\\") then
      exactly "\\"
      if ← seesChar (fun c => isBlank c || c == '\n' || c == '\r') then
        joinedLines
        return (done, true)
      return ((← escaped) :: done, true)
    if ← seesChar (fun c => c == '\n' || c == '\r') then
      newline
      return ('\n' :: done, true)
    return ((← one isPlain) :: done, true)
  return String.ofList (chars.reverse ++ (← closing mark))

def string : Scanner String := do
  if ← sees "\"\"\"" then multilineString '"'
  else if ← sees "'''" then multilineString '\''
  else if ← sees "\"" then basicString
  else literalString

def isKeyChar (c : Char) : Bool := c.isAlphanum || c == '_' || c == '-'

def simpleKey : Scanner String := do
  if ← sees "\"" then basicString
  else if ← sees "'" then literalString
  else return String.ofList (← run1 isKeyChar)

/-- No key may have more parts than this, and no value be nested deeper. -/
def depthLimit : Nat := 80

def key : Scanner (List String) := do
  let parts ← loop [] fun done => do
    blanks
    let part ← simpleKey
    blanks
    if ← sees "." then
      exactly "."
      return (part :: done, true)
    return (part :: done, false)
  if parts.length < depthLimit then return parts.reverse else failure

end RecordViews.Toml
