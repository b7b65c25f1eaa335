import RecordViews.Token.Lexer

/-!
Which names can be written as identifiers. A keyword is written raw; the words that stand for a
place, and the underscore, never are.
-/

namespace RecordViews

def keywords : List String :=
  ["_", "abstract", "as", "async", "await", "become", "box", "break", "const", "continue", "crate",
   "do", "dyn", "else", "enum", "extern", "false", "final", "fn", "for", "if", "impl", "in", "let",
   "loop", "macro", "match", "mod", "move", "mut", "override", "priv", "pub", "ref", "return",
   "Self", "self", "static", "struct", "super", "trait", "true", "try", "type", "typeof", "unsafe",
   "unsized", "use", "virtual", "where", "while", "yield"]

def isKeyword (word : String) : Bool :=
  keywords.contains word

/-- Keywords that name the root of a path and are written as they are. -/
def pathRoots : List String := ["crate", "self", "super", "Self"]

def unraw (name : String) : String :=
  match name.toList with
  | 'r' :: '#' :: rest => String.ofList rest
  | _ => name

/-- The one identifier that the text consists of, keywords included. -/
def soleWord? (text : String) : Option String :=
  match lex? text with
  | some [⟨.ident word, _⟩] => some word
  | _ => none

/-- Why a name is not written as an identifier. -/
inductive NameFault where
  | invalid (name : String)
  /-- A text is taken for an identifier and is none. Nothing can go on then. -/
  | abort (text : String)
deriving DecidableEq, Repr, Inhabited

/-- Takes a text for an identifier as it stands. -/
def asIdentifier (text : String) : Except NameFault String :=
  if soleWord? text = some text then .ok text else .error (.abort text)

/-- The identifier that a name is written as. A mark of a raw identifier in front is ignored. What
stands around a word is overlooked; only a keyword, which is marked anew, has to stand alone. -/
def identifier (name : String) : Except NameFault String :=
  let bare := unraw name
  match soleWord? bare with
  | none => .error (.invalid name)
  | some word =>
    if !isKeyword word then .ok word
    else if bare == "_" || pathRoots.contains bare then .error (.invalid name)
    else (asIdentifier bare).map ("r#" ++ ·)

def identifier? (name : String) : Option String :=
  (identifier name).toOption

/-- One segment of a path: a path root as it is, or an identifier. -/
def segment (name : String) : Except NameFault String :=
  if pathRoots.contains name then .ok name else identifier name

end RecordViews
