import RecordViews.Source.Attributes
import RecordViews.Source.Declared

/-!
What reading items brings to light, one finding after the other: records, what bearers carry,
functions that read or assign members, and faults. The records of all modules come before the
blocks of functions.
-/

namespace RecordViews

open Grammar

inductive Contribution where
  | view (r : ViewRequest)
  | metaType (r : MetaRequest)
  | override (o : Override)
  | addition (a : Addition)
deriving DecidableEq, Repr, Inhabited

def Contribution.addTo (c : Contribution) (b : Bearer) : Bearer :=
  match c with
  | .view r => { b with requests := b.requests ++ [r] }
  | .metaType r => { b with metas := b.metas ++ [r] }
  | .override o => b.addOverride o
  | .addition a => { b with additions := b.additions ++ [a] }

inductive Finding where
  | type (t : SourceType)
  /-- `place` is how much of the text is left at the name that carries it. -/
  | contribution (bearer : TypeName) (place : Nat) (c : Contribution)
  | accessor (owner : TypeName) (m : Member)
  | setter (s : Setter)
  | fault (f : AttributeFault)
deriving DecidableEq, Repr, Inhabited

namespace Finding

def ofContribution (bearer : TypeName) (place : Nat) :
    Except AttributeFault Contribution → Finding
  | .ok c => .contribution bearer place c
  | .error f => .fault f

def contribution? (scope : Scope) (a : Attribute) : Option (Except AttributeFault Contribution) :=
  a.helper?.map fun
    | .viewOf => .view <$> ViewRequest.ofAttribute scope a
    | .viewProperty => .override <$> Override.ofAttribute scope a
    | .viewMeta => .metaType <$> MetaRequest.ofAttribute scope a

def ofRecord (scope : Scope) (r : RecordItem) : List Finding :=
  .type (SourceType.ofItem scope r) ::
    (r.attributes.filterMap (contribution? scope)).map
      (ofContribution (SourceType.nameOf scope r) r.place)

def ofRole (s : Signature) : FunctionRole → Contribution
  | .adds name get set => .addition { name, function := s, getter := get, setter := set }
  | .extracts member => .override { name := member, extractor := some s }

/-- A function of `owner`: one with a helper attribute plays the part that the first one gives it,
any other may access a member. -/
def ofFunction (owner : TypeName) (f : FunctionItem) : List Finding :=
  match f.attributes.find? (·.helper? == some .viewProperty) with
  | some a =>
    let role := ofRole (Signature.ofItem owner f) <$> FunctionRole.ofAttribute a
    [ofContribution owner f.place role]
  | none =>
    (f.accessor?.map (.accessor owner)).toList ++ ((f.setter? owner).map .setter).toList

/-- The record that a block of functions belongs to: the block implements no trait, has no
parameters and names the record by a path. -/
def owner? (scope : Scope) (b : BlockItem) : Option TypeName :=
  match b.traitRef, b.generics, b.selfType with
  | none, [], .path path => TypeName.resolve? scope path
  | _, _, _ => none

def ofMember (owner : TypeName) : BlockMember → List Finding
  | .function f => ofFunction owner f
  | .other _ => []

def ofBlock (scope : Scope) (b : BlockItem) : List Finding :=
  match owner? scope b with
  | some owner => b.members.flatMap (ofMember owner)
  | none => []

def ofRecordItem (scope : Scope) : Item → List Finding
  | .record r => ofRecord scope r
  | _ => []

def ofBlockItem (scope : Scope) : Item → List Finding
  | .block b => ofBlock scope b
  | _ => []

/-- The findings in some modules: first the records, then the blocks of functions. -/
def ofModules (modules : List (Scope × List Item)) : List Finding :=
  modules.flatMap (fun (scope, items) => items.flatMap (ofRecordItem scope)) ++
    modules.flatMap fun (scope, items) => items.flatMap (ofBlockItem scope)

end Finding

namespace Grammar.Item

mutual

/-- The module that an item of `scope` is and the modules inside it, outer ones first. -/
def modules (scope : Scope) : Item → List (Scope × List Item)
  | .module head items =>
    (scope ++ [unraw head.name], items) :: listModules (scope ++ [unraw head.name]) items
  | .record _ | .block _ | .other _ => []

def listModules (scope : Scope) : List Item → List (Scope × List Item)
  | [] => []
  | item :: rest => item.modules scope ++ listModules scope rest

end

end Grammar.Item

end RecordViews
