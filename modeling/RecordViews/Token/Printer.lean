import RecordViews.Token.Basic

/-!
The printed form of a token stream: one blank between neighbours, except after a joint mark and at
the inner sides of round and square brackets. Generic arguments are printed lifetimes first.
-/

namespace RecordViews

namespace Delimiter

def openText : Delimiter → String
  | .paren => "("
  | .bracket => "["
  | .brace => "\x7b"
  | .angle => "<"

def closeText : Delimiter → String
  | .paren => ")"
  | .bracket => "]"
  | .brace => "\x7d"
  | .angle => ">"

def isTight : Delimiter → Bool
  | .paren | .bracket => true
  | .brace | .angle => false

end Delimiter

namespace Token

def text : Token → String
  | .ident name => name
  | .punct mark _ => mark.toString
  | .literal t => t
  | .opening d => d.openText
  | .closing d => d.closeText

def spaced : Token → Token → Bool
  | .punct _ true, _ => false
  | .opening d, .closing e => !d.isTight && !e.isTight
  | .opening d, _ => !d.isTight
  | _, .closing d => !d.isTight
  | _, _ => true

end Token

namespace Tokens

def pieces : Tokens → List String
  | [] => []
  | [t] => [t.text]
  | t :: u :: rest =>
    if t.spaced u then t.text :: " " :: pieces (u :: rest) else t.text :: pieces (u :: rest)

/-- One argument of a generic argument list, and whether a comma follows it. -/
structure Argument where
  tokens : Tokens
  comma : Bool

/-- The tokens behind the end of a group, which may hold further groups. -/
def afterGroup : Nat → Tokens → Tokens
  | _, [] => []
  | 0, .closing _ :: rest => rest
  | n + 1, .closing _ :: rest => afterGroup n rest
  | n, .opening _ :: rest => afterGroup (n + 1) rest
  | n, _ :: rest => afterGroup n rest

def afterAttributes : Nat → Tokens → Tokens
  | n + 1, .punct '#' _ :: .opening .bracket :: rest => afterAttributes n (afterGroup 0 rest)
  | _, ts => ts

/-- A lifetime argument or parameter, as opposed to a bound that starts with a lifetime. -/
def Argument.isLifetime (a : Argument) : Bool :=
  match afterAttributes a.tokens.length a.tokens with
  | .punct '\'' _ :: _ :: .punct '+' _ :: _ => false
  | .punct '\'' _ :: _ => true
  | _ => false

/-- Prints arguments in the order given, each with its own comma, and a comma where one is missing
between neighbours. -/
def printArguments (ended : Bool) : List Argument → Tokens
  | [] => []
  | a :: rest =>
    (if ended then [] else comma) ++ a.tokens ++ (if a.comma then comma else []) ++
      printArguments a.comma rest

def lifetimesFirst (args : List Argument) : Tokens :=
  let (lifetimes, others) := args.partition Argument.isLifetime
  if others.isEmpty || lifetimes.isEmpty then printArguments true args
  else printArguments true (lifetimes ++ others)

/-- An enclosing group while its contents are read: what encloses it, the finished arguments if it
is an argument list, the tokens since then, last first, and how many angles are open among them that
are marks of their own. Commas in such angles end no argument. -/
structure Frame where
  delimiter : Option Delimiter
  done : List Argument := []
  pending : Tokens := []
  marks : Nat := 0

namespace Frame

/-- How many angles are open behind a token, given the tokens before it, last first. The end of an
arrow closes none. -/
def marksAfter (marks : Nat) (before : Tokens) : Token → Nat
  | .punct '<' _ => marks + 1
  | .punct '>' _ => if before.head? == some (.punct '-' true) then marks else marks - 1
  | _ => marks

def push (f : Frame) (t : Token) : Frame :=
  { f with pending := t :: f.pending, marks := marksAfter f.marks f.pending t }

def isSplit (f : Frame) : Bool :=
  f.delimiter == some .angle && f.marks == 0

def endArgument (f : Frame) : Frame :=
  { f with done := ⟨f.pending.reverse, true⟩ :: f.done, pending := [] }

def close (f : Frame) : Tokens :=
  if f.delimiter == some .angle then
    let args := if f.pending.isEmpty then f.done else ⟨f.pending.reverse, false⟩ :: f.done
    (lifetimesFirst args.reverse).reverse
  else f.pending

end Frame

/-- Reads one token onto the stack of open groups, innermost first. -/
def arrangeStep (stack : List Frame) (t : Token) : List Frame :=
  match stack, t with
  | f :: rest, .opening d => { delimiter := some d } :: f.push (.opening d) :: rest
  | f :: g :: rest, .closing d => { g with pending := .closing d :: (f.close ++ g.pending) } :: rest
  | f :: rest, .punct ',' j =>
    (if f.isSplit then f.endArgument else f.push (.punct ',' j)) :: rest
  | f :: rest, t => f.push t :: rest
  | [], _ => []

/-- The stream in printing order: in every argument list lifetimes come first. -/
def arrange (ts : Tokens) : Tokens :=
  match ts.foldl arrangeStep [{ delimiter := none }] with
  | [f] => f.close.reverse
  | _ => ts

def render (ts : Tokens) : String :=
  String.join (pieces (arrange ts))

end Tokens

end RecordViews
