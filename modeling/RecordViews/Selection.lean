import RecordViews.Pattern.Reader
import RecordViews.Request

/-!
Which members a view shows. A member is chosen when some request names it or matches it, and no
request excludes it. A pattern has to match the whole name.
-/

namespace RecordViews

open Pattern (Node)

structure Selection where
  includes : List String := []
  excludes : List String := []
  includePatterns : List Node := []
  excludePatterns : List Node := []
deriving DecidableEq, Repr, Inhabited

namespace Selection

/-- Reads a pattern. An empty one counts as missing. -/
def readPattern : Option String → Except Failure (List Node)
  | none => .ok []
  | some text =>
    if text.isEmpty then .ok []
    else
      match Node.ofPattern text with
      | .ok r => .ok [r]
      | .error fault => .error (.pattern text fault)

def add (s : Selection) (r : ViewRequest) : Except Failure Selection := do
  let include_ ← readPattern r.includePattern
  let exclude ← readPattern r.excludePattern
  return {
    includes := s.includes ++ r.includes
    excludes := s.excludes ++ r.excludes
    includePatterns := s.includePatterns ++ include_
    excludePatterns := s.excludePatterns ++ exclude }

/-- The rules of all requests, unless a pattern cannot be read. -/
def ofRequests (rs : List ViewRequest) : Except Failure Selection :=
  rs.foldlM add {}

def includesName (s : Selection) (name : String) : Bool :=
  s.includes.contains name || s.includePatterns.any (·.isMatch name)

def excludesName (s : Selection) (name : String) : Bool :=
  s.excludes.contains name || s.excludePatterns.any (·.isMatch name)

def accepts (s : Selection) (name : String) : Bool :=
  s.includesName name && !s.excludesName name

end Selection

end RecordViews
