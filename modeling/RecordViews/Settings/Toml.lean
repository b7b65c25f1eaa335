import RecordViews.Settings.TomlScalar
import RecordViews.Settings.TomlText
import RecordViews.Settings.Value

/-!
TOML documents. A document is a tree of tables, and every table and key may be defined once: `enter`
goes down a path of keys and refuses what would define something again.
-/

namespace RecordViews.Toml

open Text Text.Scanner

inductive Origin where
  /-- By a header of its own, or as an element of a list. -/
  | header
  /-- By a header of a table inside it. -/
  | implied
  | dotted
deriving DecidableEq, Repr, Inhabited

inductive Entry where
  | value (v : SettingValue)
  | table (origin : Origin) (entries : List (String × Entry))
  /-- A list of tables, the last one first. -/
  | tables (elements : List (List (String × Entry)))
deriving Inhabited

abbrev Entries := List (String × Entry)

namespace Entries

def put (key : String) (e : Entry) : Entries → Entries
  | [] => [(key, e)]
  | (k, old) :: rest => if k == key then (k, e) :: rest else (k, old) :: put key e rest

/-- Changes the table that a path leads to, by `f`, which is told how the table came about. Tables
that are missing on the way come about by the header or, if `dotted`, by the key that the path is
from; a key does not lead into a table that has a header. -/
def enter (dotted : Bool) (f : Origin → Entries → Option Entries) :
    List String → Origin → Entries → Option Entries
  | [], origin, entries => f origin entries
  | key :: path, _, entries =>
    match entries.lookup key with
    | none =>
      let origin := if dotted then .dotted else .implied
      (enter dotted f path origin []).map fun sub => put key (.table origin sub) entries
    | some (.value _) => none
    | some (.table origin sub) =>
      if dotted && origin == .header then none
      else (enter dotted f path origin sub).map fun sub => put key (.table origin sub) entries
    | some (.tables []) => none
    | some (.tables (last :: before)) =>
      (enter dotted f path .header last).map fun last => put key (.tables (last :: before)) entries

def define (path : List String) (v : SettingValue) (origin : Origin) (entries : Entries) :
    Option Entries :=
  let front := path.dropLast
  enter true (fun origin entries =>
    path.getLast?.bind fun key =>
      if (origin == .dotted) == front.isEmpty || (entries.lookup key).isSome then none
      else some (entries ++ [(key, .value v)])) front origin entries

def openTable (path : List String) (entries : Entries) : Option Entries :=
  enter false (fun _ entries =>
    path.getLast?.bind fun key =>
      match entries.lookup key with
      | none => some (entries ++ [(key, .table .header [])])
      | some (.table .implied sub) => some (put key (.table .header sub) entries)
      | some _ => none) path.dropLast .header entries

def openElement (path : List String) (entries : Entries) : Option Entries :=
  enter false (fun _ entries =>
    path.getLast?.bind fun key =>
      match entries.lookup key with
      | none => some (entries ++ [(key, .tables [[]])])
      | some (.tables elements) => some (put key (.tables ([] :: elements)) entries)
      | some _ => none) path.dropLast .header entries

end Entries

def comment : Scanner Unit := do
  exactly "#"
  skip isPlain

def gap : Scanner Unit :=
  loop () fun _ => do
    blanks
    if ← sees "#" then
      comment
      newline
      return ((), true)
    if ← seesChar (fun c => c == '\n' || c == '\r') then
      newline
      return ((), true)
    return ((), false)

/-- A number, a truth value, a date or a time. A blank may stand between a date and a time. -/
def scalar : Scanner SettingValue := do
  let s ← run1 isScalarChar
  if !isScalar s then failure
  if isDate s then
    let time : Scanner Unit := do
      exactly " "
      let t ← run1 isScalarChar
      if !isOffsetTime t then failure
    let _ ← (some <$> time) <|> pure none
  return .other

/-- The elements of a list behind its bracket; a last comma may follow them. -/
def elements (value : Scanner SettingValue) : Scanner (List SettingValue) := do
  let items ← loop [] fun done => do
    gap
    if ← sees "]" then return (done, false)
    let v ← value
    gap
    if ← sees "," then
      exactly ","
      return (v :: done, true)
    return (v :: done, false)
  exactly "]"
  return items.reverse

def inlineEntries (value : Scanner SettingValue) : Scanner Entries := do
  blanks
  let entries ←
    if ← sees "\x7d" then pure []
    else
      loop [] fun done => do
        let path ← key
        exactly "="
        blanks
        let v ← value
        blanks
        match Entries.define path v .header done with
        | none => failure
        | some entries =>
          if ← sees "," then
            exactly ","
            return (entries, true)
          return (entries, false)
  exactly "\x7d"
  return entries

/-- A value whose lists and tables are nested less than `n` deep. -/
def value : Nat → Scanner SettingValue
  | 0 => failure
  | n + 1 => do
    if ← seesChar (fun c => c == '"' || c == '\'') then return .text (← string)
    if ← sees "[" then
      if n == 0 then failure
      exactly "["
      return .list (← elements (value n))
    if ← sees "\x7b" then
      if n == 0 then failure
      exactly "\x7b"
      let _ ← inlineEntries (value n)
      return .other
    scalar

def lineEnd : Scanner Unit := do
  blanks
  if ← sees "#" then comment
  if !(← atEnd) then newline

/-- A document while it is read: what it defines so far, and the table that keys belong to. -/
structure Draft where
  entries : Entries := []
  path : List String := []

/-- The draft of these entries, if nothing was defined twice. -/
def Draft.of (path : List String) (entries : Option Entries) : Scanner Draft :=
  match entries with
  | some entries => return { entries, path }
  | none => failure

def line (d : Draft) : Scanner Draft := do
  if ← sees "[[" then
    exactly "[["
    let path ← key
    exactly "]]"
    lineEnd
    Draft.of path (Entries.openElement path d.entries)
  else if ← sees "[" then
    exactly "["
    let path ← key
    exactly "]"
    lineEnd
    Draft.of path (Entries.openTable path d.entries)
  else
    let path ← key
    exactly "="
    blanks
    let v ← value depthLimit
    lineEnd
    Draft.of d.path (Entries.enter false (Entries.define path v) d.path .header d.entries)

def document : Scanner Entries := do
  if ← sees "\uFEFF" then exactly "\uFEFF"
  let d ← loop ({} : Draft) fun d => do
    blanks
    if ← atEnd then return (d, false)
    if ← sees "#" then
      lineEnd
      return (d, true)
    if ← seesChar (fun c => c == '\n' || c == '\r') then
      newline
      return (d, true)
    return (← line d, true)
  return d.entries

def Entry.setting : Entry → SettingValue
  | .value v => v
  | .table .. => .other
  | .tables elements => .list (elements.map fun _ => .other)

def layer? (text : String) : Option SettingLayer :=
  (whole? document text).map fun entries => entries.map fun (key, e) => (key, e.setting)

end RecordViews.Toml
