import ScriptEngine.Number.Binary32

/-!
# Numbers on one scale

Integers and single-precision numbers are compared after widening to double
precision. The widened values of both are whole multiples of `2 ^ -149`, so
the comparison is one of integers between the two infinities; NaN compares
with nothing.
-/

namespace ScriptEngine

inductive Quantity where
  | nan
  | below
  | units (count : Int)
  | above
deriving DecidableEq, Repr

namespace Quantity

def ofBinary32 (number : Binary32) : Quantity :=
  match number.meaning with
  | .nan => .nan
  | .infinite true => .below
  | .infinite false => .above
  | .finite negative magnitude => .units (Binary32.signedUnits negative magnitude)

/-- An integer rounded to the 53 significant bits of double precision. -/
def ofInt (number : Int) : Quantity :=
  let magnitude := Rounding.toPrecision 53 number.natAbs * Binary32.one
  .units (Binary32.signedUnits (number < 0) magnitude)

def compare : Quantity → Quantity → Option Ordering
  | .nan, _ => none
  | _, .nan => none
  | .below, .below => some .eq
  | .below, _ => some .lt
  | _, .below => some .gt
  | .above, .above => some .eq
  | .above, _ => some .gt
  | _, .above => some .lt
  | .units left, .units right => some (Ord.compare left right)

end Quantity

/-- Numeric equality of single-precision numbers: the zeros agree, and NaN
agrees with nothing. -/
def Binary32.agrees (left right : Binary32) : Bool :=
  (Quantity.ofBinary32 left).compare (Quantity.ofBinary32 right) == some .eq

end ScriptEngine
