import RecordViews.Settings.TomlText
import RecordViews.Settings.Value
import RecordViews.Text.Replace
import RecordViews.Value.Floating
import RecordViews.Value.Integer

/-!
Settings in environment variables. The name of a variable says which setting it is about, and its
text is read as a value, or stands for itself where that fails.
-/

namespace RecordViews.Environment

open Text Text.Scanner

/-- Starts the names of variables that are settings; letters of both cases count as equal. -/
def marker : String := "VIEW_SYNTH_"

/-- The names that lead to a setting: two underscores or a point stand between them. -/
def settingPath? (variableName : String) : Option (List String) :=
  let s := trim variableName.toList
  let start := String.ofList ((s.take marker.length).map Char.toUpper)
  if start != marker then none
  else
    let name := (trim (s.drop marker.length)).map Char.toLower
    let parts := (replaceAll "__" "." (String.ofList name)).splitOn "."
    if parts.any (·.isEmpty) then none else some parts

def isSpace (c : Char) : Bool :=
  c == ' ' || c == '\t' || c == '\n' || c == '\r' || c == '\x0c'

def isSeparator (c : Char) : Bool :=
  c == ',' || c == '\x7b' || c == '\x7d' || c == '[' || c == ']'

/-- A text without quotes: a number if it reads as one. -/
def bare (s : List Char) : SettingValue :=
  let body := trim s
  let text := String.ofList body
  let isInteger (n : Int) : Bool :=
    IntegerFormat.signed64.contains n || IntegerFormat.unsigned64.contains n
  if body.contains '.' && (Floating.ofText? .double text).isSome then .other
  else if (Decimal.integer? body).any isInteger then .other
  else .text text

def quotedChar : Scanner SettingValue := do
  exactly "'"
  let c ← one fun _ => true
  exactly "'"
  return .text (String.ofList [c])

def takeBytes : Nat → List Char → List Char
  | _, [] => []
  | n, c :: rest => if c.utf8Size ≤ n then c :: takeBytes (n - c.utf8Size) rest else []

/-- A string in quotation marks. What stands before its first escape is cut to as many bytes as it
has characters, which loses something where a character has several bytes. -/
def quotedText : Scanner String := do
  exactly "\""
  let (chars, _) ← loop (([] : List Char), true) fun (done, isFirst) => do
    if ← sees "\"" then return ((done, isFirst), false)
    if ← sees "\\" then
      exactly "\\"
      let kept := if isFirst then (takeBytes done.length done.reverse).reverse else done
      return (((← Toml.escaped) :: kept, false), true)
    return (((← one Toml.isPlain) :: done, isFirst), true)
  exactly "\""
  return String.ofList chars.reverse

/-- Parts with commas between them up to a closing bracket; a last comma may follow. -/
def enclosed {α : Type} (start stop : String) (part : Scanner α) : Scanner (List α) := do
  exactly start
  let parts ← loop [] fun done => do
    if ← sees stop then return (done, false)
    let a ← part
    if ← sees "," then
      exactly ","
      return (a :: done, true)
    return (a :: done, false)
  exactly stop
  return parts.reverse

def name : Scanner Unit := do
  skip isSpace
  if ← sees "\"" then
    let _ ← Toml.basicString
  else
    let _ ← run1 Toml.isKeyChar
  skip isSpace
  exactly "="

/-- A value whose lists and tables are nested less than `n` deep. -/
def value : Nat → Scanner SettingValue
  | 0 => failure
  | n + 1 => do
    skip isSpace
    let v ←
      if ← sees "true" then
        exactly "true"
        pure .other
      else if ← sees "false" then
        exactly "false"
        pure .other
      else if ← sees "\x7b" then
        let _ ← enclosed "\x7b" "\x7d" (do name; value n)
        pure .other
      else if ← sees "[" then SettingValue.list <$> enclosed "[" "]" (value n)
      else if ← sees "\"" then SettingValue.text <$> quotedText
      else if ← sees "'" then quotedChar
      else bare <$> run fun c => !isSeparator c
    skip isSpace
    return v

def read (text : String) : SettingValue :=
  (whole? (value (text.length + 1)) text).getD (.text text)

def layer (environment : List (String × String)) : SettingLayer :=
  environment.filterMap fun (variableName, text) =>
    match settingPath? variableName with
    | some [key] => some (key, read text)
    | some (key :: _) => some (key, .other)
    | _ => none

end RecordViews.Environment
