import RecordViews.Grammar.Item

/-!
Helper attributes, by which source text asks for views. They mean nothing to the language itself,
so `withoutHelpers` takes them out of a module before its items are compiled.
-/

namespace RecordViews

inductive Helper where
  | viewOf
  /-- Changes the property of a member, or makes a function give one. -/
  | viewProperty
  | viewMeta
deriving DecidableEq, Repr, Inhabited

namespace Helper

def all : List Helper := [.viewOf, .viewProperty, .viewMeta]

def word : Helper → String
  | .viewOf => "view_of"
  | .viewProperty => "view_property"
  | .viewMeta => "view_meta"

end Helper

namespace Grammar

/-- The helper that an attribute is. The last word of its path decides, so that it does not matter
how the helper was imported. -/
def Attribute.helper? (a : Attribute) : Option Helper :=
  Helper.all.find? (·.word == a.path.lastName)

def Attribute.dropHelpers (as : List Attribute) : List Attribute :=
  as.filter (·.helper?.isNone)

def BlockMember.withoutHelpers : BlockMember → BlockMember
  | .function f => .function { f with attributes := Attribute.dropHelpers f.attributes }
  | .other tokens => .other tokens

/-- The item without the helper attributes on a record and on the functions of a block. -/
def Item.withoutHelpers : Item → Item
  | .record r => .record { r with attributes := Attribute.dropHelpers r.attributes }
  | .block b => .block { b with members := b.members.map BlockMember.withoutHelpers }
  | .module head items => .module head items
  | .other tokens => .other tokens

end Grammar

end RecordViews
