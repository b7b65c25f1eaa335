import RecordViews.Files.Folder

/-!
Directories inside one another, with files in them. Paths are followed name by name from the root;
every name on the way has to be a directory.
-/

namespace RecordViews

abbrev Place := List String

inductive FileEntry where
  | file (text : String)
  | directory
deriving DecidableEq, Repr, Inhabited

/-- Files and directories by their places; the root is a directory without an entry. -/
structure FileTree where
  entries : List (Place × FileEntry) := []
deriving DecidableEq, Repr, Inhabited

def pathNames (path : String) : List String :=
  (path.splitOn "/").filter fun name => name != "" && name != "."

def joinPath (root file : String) : String :=
  if file.startsWith "/" || root.isEmpty then file
  else if root.endsWith "/" then root ++ file
  else root ++ "/" ++ file

/-- No name may be longer than this in bytes. -/
def maxNameSize : Nat := 255

namespace FileTree

def entry? (t : FileTree) (place : Place) : Option FileEntry :=
  if place.isEmpty then some .directory else t.entries.lookup place

def erase (t : FileTree) (place : Place) : FileTree :=
  ⟨t.entries.filter (·.1 != place)⟩

def put (t : FileTree) (place : Place) (e : FileEntry) : FileTree :=
  ⟨(place, e) :: (t.erase place).entries⟩

def enter (t : FileTree) : Place → List String → Except FileFault Place
  | here, [] => .ok here
  | here, name :: rest =>
    if name == ".." then t.enter here.dropLast rest
    else if maxNameSize < name.utf8ByteSize then .error .nameTooLong
    else
      match t.entry? (here ++ [name]) with
      | none => .error .notFound
      | some (.file _) => .error .notADirectory
      | some .directory => t.enter (here ++ [name]) rest

def directory (t : FileTree) (path : String) : Except FileFault Place :=
  if path.isEmpty || path.startsWith "/" then .error .notFound else t.enter [] (pathNames path)

/-- The place of a path from a directory; the directory that it is in exists. -/
def locate (t : FileTree) (here : Place) (path : String) : Except FileFault Place := do
  if path.startsWith "/" then .error .outside
  let names := pathNames path
  let parent ← t.enter here names.dropLast
  let name := names.getLast?.getD ""
  if maxNameSize < name.utf8ByteSize then .error .nameTooLong
  return parent ++ [name]

def read (t : FileTree) (here : Place) (path : String) : Except FileFault String := do
  match t.entry? (← t.locate here path) with
  | some (.file text) => return text
  | some .directory => .error .isADirectory
  | none => .error .notFound

/-- The file at a path from the root, if there is one. -/
def file? (t : FileTree) (path : String) : Option String :=
  (t.read [] path).toOption

def makeAll (t : FileTree) : Place → List String → Except FileFault Unit × FileTree
  | _, [] => (.ok (), t)
  | here, name :: rest =>
    if name == ".." then t.makeAll here.dropLast rest
    else if maxNameSize < name.utf8ByteSize then (.error .nameTooLong, t)
    else
      match t.entry? (here ++ [name]) with
      | none => (t.put (here ++ [name]) .directory).makeAll (here ++ [name]) rest
      | some (.file _) => (.error .notADirectory, t)
      | some .directory => t.makeAll (here ++ [name]) rest

/-- The directory at a path from the root; it is made if it is missing. -/
def ensureDirectory (t : FileTree) (path : String) : Except FileFault Place × FileTree :=
  match t.directory path with
  | .error .notFound =>
    match t.makeAll [] (pathNames path) with
    | (.ok (), made) => (made.directory path, made)
    | (.error f, made) => (.error f, made)
  | found => (found, t)

/-- The tree of files with their texts; the directories they are in come with them. -/
def ofFiles (files : List (String × String)) : FileTree :=
  files.foldl (fun t (path, text) =>
    (t.makeAll [] (pathNames path).dropLast).2.put (pathNames path) (.file text)) {}

/-- The names and texts of the files in a directory, in the order of their names. -/
def filesIn (t : FileTree) (place : Place) : List (String × String) :=
  let found := t.entries.filterMap fun (p, e) =>
    match p.getLast?, e with
    | some name, .file text => if p.dropLast == place then some (name, text) else none
    | _, _ => none
  found.mergeSort fun a b => a.1 ≤ b.1

def change (t : FileTree) (changed : Except FileFault FileTree) :
    Except FileFault Unit × FileTree :=
  match changed with
  | .ok u => (.ok (), u)
  | .error f => (.error f, t)

def write (t : FileTree) (here : Place) (path text : String) : Except FileFault FileTree := do
  let place ← t.locate here path
  match t.entry? place with
  | some .directory => .error .isADirectory
  | _ => return t.put place (.file text)

def rename (t : FileTree) (here : Place) (source target : String) : Except FileFault FileTree := do
  let place ← t.locate here source
  let text ← t.read here source
  (t.erase place).write here target text

def remove (t : FileTree) (here : Place) (path : String) : Except FileFault FileTree := do
  let _ ← t.read here path
  return t.erase (← t.locate here path)

def folder (here : Place) : Folder FileTree where
  clear t file := t.change (t.write here file "")
  write t file text := t.change (t.write here file text)
  rename t source target := t.change (t.rename here source target)
  remove t file := t.change (t.remove here file)

end FileTree

end RecordViews
