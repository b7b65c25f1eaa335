import RecordViews.Extraction

/-!
One property of a view. A property starts from a member or a function and is changed by the steps
below, each of which gives a new property.
-/

namespace RecordViews

open Grammar (Ty)

structure Property where
  name : String
  /-- How far the member it comes from can be seen. -/
  modifier : Access
  getter : Access
  setter : Access
  ty : Ty
  view : Option TypeName := none
  /-- The value comes from a call. -/
  methodBacked : Bool
  writable : Bool
  /-- A function that was given; without one the member is read. -/
  explicit : Option Extractor := none
  /-- The reading of the member, kept from the start. -/
  direct : Option DirectRead := none
  converter : Option Converter := none
  source : Option Member := none
  comment : Option String := none
deriving DecidableEq, Repr, Inhabited

namespace Property

/-- A setter is kept only where the value can be assigned back. -/
def clampSetter (writable : Bool) (access : Access) : Access :=
  if writable then access else .none

def ofMember (m : Member) (getter setter : Access) : Property where
  name := m.name
  modifier := m.modifier
  getter
  setter := clampSetter m.writable setter
  ty := m.ty
  methodBacked := m.kind == .accessor
  writable := m.writable
  direct := some (DirectRead.ofMember m)
  source := some m
  comment := m.comment

/-- A property computed by a function; it cannot be assigned. -/
def computed (name : String) (s : Signature) (getter : Access) : Property where
  name
  modifier := .everywhere
  getter
  setter := .none
  ty := s.result
  methodBacked := true
  writable := false
  explicit := some (.function s)
  comment := s.comment

def withName (p : Property) (name : String) : Property := { p with name }

def withGetter (p : Property) (getter : Access) : Property := { p with getter }

def withSetter (p : Property) (access : Access) : Property :=
  { p with setter := clampSetter p.writable access }

/-- The value is got by `e` and has its type. -/
def withExtractor (p : Property) (e : Extractor) : Property :=
  { p with ty := e.result, methodBacked := p.methodBacked || e.isFunction, explicit := some e }

def withType (p : Property) (ty : Ty) (view : Option TypeName) : Property := { p with ty, view }

/-- The value passes through a converter; the type shown stays. -/
def withConverter (p : Property) (c : Converter) : Property := { p with converter := some c }

def withComment (p : Property) (comment : Option String) : Property := { p with comment }

def detached (p : Property) : Property := { p with source := none }

def hasGetter (p : Property) : Bool := !p.getter.isNone

def hasSetter (p : Property) : Bool := !p.setter.isNone

def isDynamic (p : Property) : Bool :=
  p.explicit.any Extractor.isDynamic

/-- What gives the value: the function that was given, or the reading of the member. -/
def extractor? (p : Property) : Option Extractor :=
  match p.explicit with
  | some e => some e
  | none => p.direct.map .direct

end Property

end RecordViews
