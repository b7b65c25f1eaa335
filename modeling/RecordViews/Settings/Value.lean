/-!
Values of settings, as far as settings tell them apart.
-/

namespace RecordViews

inductive SettingValue where
  | text (s : String)
  | list (items : List SettingValue)
  /-- A number, a truth value, a date or a table. -/
  | other
deriving Repr, Inhabited

/-- The settings of one source, by name; of two of one name the later counts. -/
abbrev SettingLayer := List (String × SettingValue)

def SettingLayer.find? (layer : SettingLayer) (key : String) : Option SettingValue :=
  layer.reverse.lookup key

end RecordViews
