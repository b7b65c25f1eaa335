import RecordViews.Source.Finding

/-!
A unit of source text: the records it declares and the bearers in it. `ofItems` reads the items of
one module, `ofText` a file with the modules inside it; units of several files are merged.
-/

namespace RecordViews

open Grammar

structure Location where
  line : Nat
  column : Nat
deriving DecidableEq, Repr, Inhabited

def Location.ofPlace (text : String) (left : Nat) : Location :=
  let (line, column) := position text left
  ⟨line, column⟩

structure SourceUnit where
  model : Model := {}
  /-- In the order of their names. -/
  bearers : List Bearer := []
  /-- Where bearers are declared; the first entry of a name counts. -/
  places : List (TypeName × Location) := []
deriving DecidableEq, Repr, Inhabited

inductive SourceFault where
  | grammar (f : Grammar.Fault)
  /-- Every helper attribute that is wrong. -/
  | attributes (faults : List AttributeFault)
deriving DecidableEq, Repr, Inhabited

/-- Changes the first element that satisfies `p`. -/
def modifyFirst {α : Type} (p : α → Bool) (f : α → α) : List α → List α
  | [] => []
  | a :: rest => if p a then f a :: rest else a :: modifyFirst p f rest

/-- Adds an accessor to its record, unless the record has a member of that name. -/
def attachAccessor (types : List SourceType) (owner : TypeName) (m : Member) : List SourceType :=
  let add (t : SourceType) := if (t.member? m.name).isSome then t else t.addMember m
  modifyFirst (·.name == owner) add types

/-- Gives the setter to the first member of its record that it fits. -/
def attachSetter (types : List SourceType) (s : Setter) : List SourceType :=
  modifyFirst (fun t => t.name == s.owner && t.members.any s.fits)
    (fun t => { t with members := modifyFirst s.fits (·.withSetter s.function) t.members }) types

/-- Adds what a bearer carries, and the bearer if it is new. -/
def contribute (bearers : List Bearer) (name : TypeName) (c : Contribution) : List Bearer :=
  match TypeName.findIn? Bearer.name name bearers with
  | some _ => TypeName.modifyIn Bearer.name name c.addTo bearers
  | none => TypeName.insertIn Bearer.name (c.addTo { name }) bearers

namespace Finding

/-- The records, with the members that functions read and the setters that functions are. -/
def types (findings : List Finding) : List SourceType :=
  let declared := findings.filterMap fun
    | .type t => some t
    | _ => none
  let accessed := findings.foldl (fun types finding => match finding with
    | .accessor owner m => attachAccessor types owner m
    | _ => types) declared
  findings.foldl (fun types finding => match finding with
    | .setter s => attachSetter types s
    | _ => types) accessed

def bearers (findings : List Finding) : List Bearer :=
  findings.foldl (fun bearers finding => match finding with
    | .contribution name _ c => contribute bearers name c
    | _ => bearers) []

def places (findings : List Finding) : List (TypeName × Nat) :=
  findings.filterMap fun
    | .contribution name place _ => some (name, place)
    | _ => none

def faults (findings : List Finding) : List AttributeFault :=
  findings.filterMap fun
    | .fault f => some f
    | _ => none

end Finding

namespace SourceUnit

/-- The unit of some findings, if none is a fault; `locate` tells where a place is. -/
def ofFindings (locate : Nat → Location) (findings : List Finding) :
    Except (List AttributeFault) SourceUnit :=
  match Finding.faults findings with
  | [] =>
    .ok { model := Model.insertAll {} (Finding.types findings)
          bearers := Finding.bearers findings
          places := (Finding.places findings).map fun (name, place) => (name, locate place) }
  | faults => .error faults

/-- The unit of the items of one module; modules inside it are left alone. -/
def ofItems (locate : Nat → Location) (scope : Scope) (items : List Item) :
    Except (List AttributeFault) SourceUnit :=
  ofFindings locate (Finding.ofModules [(scope, items)])

/-- The unit of the items of a file, with those of the modules inside it. -/
def ofFile (locate : Nat → Location) (scope : Scope) (items : List Item) :
    Except (List AttributeFault) SourceUnit :=
  ofFindings locate (Finding.ofModules ((scope, items) :: Item.listModules scope items))

/-- The unit of the text of a file, without the modules inside it if `flat`. -/
def ofText (scope : Scope) (flat : Bool) (text : String) : Except SourceFault SourceUnit := do
  let items ← (itemsOfText text).mapError .grammar
  let read := if flat then ofItems else ofFile
  (read (Location.ofPlace (withoutPreamble text)) scope items).mapError .attributes

/-- Both units in one; of two records of one name the later stays. -/
def merge (a b : SourceUnit) : SourceUnit where
  model := a.model.insertAll b.model.types
  bearers := TypeName.sortBy Bearer.name (a.bearers ++ b.bearers)
  places := b.places ++ a.places

def location? (u : SourceUnit) (name : TypeName) : Option Location :=
  (TypeName.findIn? Prod.fst name u.places).map (·.2)

end SourceUnit

end RecordViews
