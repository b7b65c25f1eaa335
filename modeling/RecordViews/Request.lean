import RecordViews.Extraction

/-!
What is asked for: views of records, meta types that list their members, and changes to the
properties of views. A bearer is a record that carries such requests.
-/

namespace RecordViews

open Grammar (Ty Path)

inductive Selector where
  | itself
  | named (name : TypeName)
deriving DecidableEq, Repr, Inhabited

def Selector.resolve (s : Selector) (bearer : TypeName) : TypeName :=
  match s with
  | .itself => bearer
  | .named name => name

/-- The generated name: the one asked for, or the target's with a suffix, in the module asked for
or the target's. -/
def generatedName (target : TypeName) (module : Option Scope) (name : Option String)
    (suffix : String) : TypeName where
  module := module.getD target.module
  simple := name.getD (target.simple ++ suffix)

structure ViewRequest where
  target : Selector := .itself
  /-- The record whose changes to properties apply. -/
  config : Selector := .itself
  genModule : Option Scope := none
  genName : Option String := none
  access : Access := .everywhere
  emptyCtor : Access := .everywhere
  fieldsCtor : Access := .everywhere
  copyCtor : Access := .everywhere
  getters : Access := .everywhere
  setters : Access := .none
  includes : List String := []
  excludes : List String := []
  includePattern : Option String := none
  excludePattern : Option String := none
  errorMethods : Bool := true
deriving DecidableEq, Repr, Inhabited

namespace ViewRequest

def generated (r : ViewRequest) (bearer : TypeName) (suffix : String) : TypeName :=
  generatedName (r.target.resolve bearer) r.genModule r.genName suffix

end ViewRequest

structure MetaRequest where
  target : Selector := .itself
  genModule : Option Scope := none
  genName : Option String := none
  access : Access := .everywhere
deriving DecidableEq, Repr, Inhabited

namespace MetaRequest

def generated (r : MetaRequest) (bearer : TypeName) (suffix : String) : TypeName :=
  generatedName (r.target.resolve bearer) r.genModule r.genName suffix

end MetaRequest

structure ConverterChoice where
  path : Path
  output : Option Ty := none
deriving DecidableEq, Repr, Inhabited

structure Override where
  name : String
  rename : Option String := none
  getter : Option Access := none
  setter : Option Access := none
  converter : Option ConverterChoice := none
  view : Option TypeName := none
  extractor : Option Signature := none
  comment : Option String := none
deriving DecidableEq, Repr, Inhabited

/-- What a later change of the same name sets replaces what an earlier one set. -/
def Override.merge (earlier later : Override) : Override where
  name := earlier.name
  rename := later.rename <|> earlier.rename
  getter := later.getter <|> earlier.getter
  setter := later.setter <|> earlier.setter
  converter := later.converter <|> earlier.converter
  view := later.view <|> earlier.view
  extractor := later.extractor <|> earlier.extractor
  comment := later.comment <|> earlier.comment

/-- Merges a change into the first of the same name, or puts it last. -/
def Override.mergeInto (o : Override) : List Override → List Override
  | [] => [o]
  | p :: rest => if p.name == o.name then p.merge o :: rest else p :: o.mergeInto rest

structure Addition where
  name : String
  function : Signature
  getter : Option Access := none
  setter : Option Access := none
deriving DecidableEq, Repr, Inhabited

/-- A record with the requests it carries. -/
structure Bearer where
  name : TypeName
  requests : List ViewRequest := []
  overrides : List Override := []
  additions : List Addition := []
  metas : List MetaRequest := []
deriving DecidableEq, Repr, Inhabited

namespace Bearer

def targets (b : Bearer) (target : TypeName) : Bool :=
  b.requests.any fun r => r.target.resolve b.name == target

def describes (b : Bearer) (target : TypeName) : Bool :=
  b.metas.any fun r => r.target.resolve b.name == target

/-- Adds a change, merged into the first that names the same member. -/
def addOverride (b : Bearer) (o : Override) : Bearer :=
  { b with overrides := o.mergeInto b.overrides }

end Bearer

end RecordViews
