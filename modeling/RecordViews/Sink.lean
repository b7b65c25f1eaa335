import RecordViews.Failure

/-!
Where generated units go. A sink takes one unit after the other and may turn any of them down.
-/

namespace RecordViews

/-- A sink with states of type `σ`. -/
structure Sink (σ : Type) where
  emit : σ → TypeName → Tokens → Except EmitFault Unit × σ

structure Emitted where
  name : TypeName
  tokens : Tokens
deriving DecidableEq, Repr, Inhabited

namespace Sink

def memory : Sink (List Emitted) where
  emit units name tokens := (.ok (), units ++ [⟨name, tokens⟩])

def fileName (name : TypeName) : String :=
  Text.replaceAll "::" "." name.text ++ ".rs"

/-- Keeps units as `memory` does, but turns some names down. -/
def refusing (refused : TypeName → Bool) : Sink (List Emitted) where
  emit units name tokens :=
    if refused name then (.error (.file (fileName name) .refused), units)
    else memory.emit units name tokens

end Sink

def Emitted.find? (units : List Emitted) (name : TypeName) : Option Tokens :=
  (units.find? (·.name == name)).map (·.tokens)

end RecordViews
