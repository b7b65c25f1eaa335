import RecordViews.Value.Floating
import RecordViews.Value.Integer

/-!
Values of primitive types, as they are read from text and displayed.
-/

namespace RecordViews

inductive Primitive where
  | integer (f : IntegerFormat)
  | floating (f : FloatFormat)
  | truth
  | character
  | text
  | list
deriving DecidableEq, Repr, Inhabited

inductive Value where
  | integer (n : Int)
  | floating (f : FloatFormat) (x : Floating)
  | truth (b : Bool)
  | character (c : Char)
  | text (s : String)
  | list (items : List Int)
deriving DecidableEq, Repr, Inhabited

namespace Primitive

def ofName? : String → Option Primitive
  | "i8" => some (.integer ⟨true, 8⟩)
  | "i16" => some (.integer ⟨true, 16⟩)
  | "i32" => some (.integer ⟨true, 32⟩)
  | "i64" | "isize" => some (.integer ⟨true, 64⟩)
  | "i128" => some (.integer ⟨true, 128⟩)
  | "u8" => some (.integer ⟨false, 8⟩)
  | "u16" => some (.integer ⟨false, 16⟩)
  | "u32" => some (.integer ⟨false, 32⟩)
  | "u64" | "usize" => some (.integer ⟨false, 64⟩)
  | "u128" => some (.integer ⟨false, 128⟩)
  | "f32" => some (.floating .single)
  | "f64" => some (.floating .double)
  | "bool" => some .truth
  | "char" => some .character
  | "String" => some .text
  | _ => none

def isNumber : Primitive → Bool
  | .integer _ | .floating _ => true
  | .truth | .character | .text | .list => false

/-- The value that stands for nothing in particular; of a number type it is zero. -/
def zero : Primitive → Value
  | .integer _ => .integer 0
  | .floating f => .floating f (.finite false 0 f.lowest)
  | .truth => .truth false
  | .character => .character '\x00'
  | .text => .text ""
  | .list => .list []

/-- Reads an integer; a format without signs takes no minus. -/
def readInteger? (f : IntegerFormat) (text : String) : Option Int :=
  let s := text.toList
  if !f.signed && s.head? == some '-' then none else (Decimal.integer? s).filter f.contains

def read? (p : Primitive) (text : String) : Option Value :=
  match p with
  | .integer f => (readInteger? f text).map .integer
  | .floating f => (Floating.ofText? f text).map (.floating f)
  | .truth =>
    if text == "true" then some (.truth true)
    else if text == "false" then some (.truth false)
    else none
  | .character =>
    match text.toList with
    | [c] => some (.character c)
    | _ => none
  | .text => some (.text text)
  | .list => none

end Primitive

/-- The value as text; a list has none. -/
def Value.display? : Value → Option String
  | .integer n => some (if n < 0 then "-" ++ Nat.repr n.natAbs else Nat.repr n.natAbs)
  | .floating f x => some (x.text f)
  | .truth b => some (if b then "true" else "false")
  | .character c => some (String.ofList [c])
  | .text s => some s
  | .list _ => none

end RecordViews
