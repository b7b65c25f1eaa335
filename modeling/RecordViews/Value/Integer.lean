/-!
Integers of a fixed number of bits.
-/

namespace RecordViews

structure IntegerFormat where
  signed : Bool
  bits : Nat
deriving DecidableEq, Repr, Inhabited

namespace IntegerFormat

def bound (f : IntegerFormat) : Int :=
  Nat.pow 2 (if f.signed then f.bits - 1 else f.bits)

def contains (f : IntegerFormat) (n : Int) : Bool :=
  (if f.signed then 0 - f.bound else 0) ≤ n && n < f.bound

def signed64 : IntegerFormat := ⟨true, 64⟩

def unsigned64 : IntegerFormat := ⟨false, 64⟩

end IntegerFormat

end RecordViews
