import RecordViews.Text.ConstantCase
import RecordViews.View.Record

/-!
The type that lists the member names of a record as constants.
-/

namespace RecordViews

open Grammar (Path)

structure NameConstant where
  name : String
  member : String
deriving DecidableEq, Repr, Inhabited

/-- A type without fields whose constants are member names. -/
structure GeneratedConstants where
  name : String
  sourceName : TypeName
  access : Access
  constants : List NameConstant
deriving DecidableEq, Repr, Inhabited

namespace GeneratedConstants

open GeneratedRecord (fault written)

/-- The constants of the members. A name that comes up again, or that is no identifier, is a
fault; the first in the order of members counts. -/
def constantsOf (view : TypeName) (seen : List String) :
    List String → Except Failure (List NameConstant)
  | [] => .ok []
  | member :: rest => do
    let constant := Text.constantCase member
    if seen.contains constant then fault view (.repeatedConstant constant)
    else
      let name ← written view (identifier constant)
      return ⟨name, member⟩ :: (← constantsOf view (constant :: seen) rest)

def ofMetaType (m : MetaType) : Except Failure GeneratedConstants := do
  let name ← written m.name (identifier m.name.simple)
  let constants ← constantsOf m.name [] m.members
  return { name, sourceName := m.target, access := m.access, constants }

def constantTokens (c : NameConstant) : Tokens :=
  docLine (stringToken (" Name of the member \x60" ++ c.member ++ "\x60.")) ++ words "pub const" ++
    .ident c.name :: words ": & 'static str =" ++ [stringToken c.member, .punct ';' false]

def tokens (g : GeneratedConstants) : Tokens :=
  docTokens (some ("Member names of \x60" ++ g.sourceName.text ++ "\x60.")) ++
    words "# [ derive ( Debug , Clone , Copy , PartialEq , Eq ) ]" ++ g.access.tokens ++
    words "struct" ++ .ident g.name :: .punct ';' false ::
    allowTokens "dead_code" "generated constants may go unused" ++ words "impl" ++ .ident g.name ::
    Tokens.braces (g.constants.flatMap constantTokens)

end GeneratedConstants

/-- What turns views and meta types into tokens. -/
structure Renderer where
  view : View → Except Failure Tokens
  metaType : MetaType → Except Failure Tokens

namespace Renderer

def ofDerives (derives : List Path) : Renderer where
  view v := (GeneratedRecord.ofView v).map fun r => r.tokens derives
  metaType m := (GeneratedConstants.ofMetaType m).map GeneratedConstants.tokens

end Renderer

end RecordViews
