import ScriptEngine.Number.Rounding

/-!
# Single-precision binary numbers

A number is its 32 bits: sign, eight bits of exponent, 23 bits of fraction.
Every finite number is a whole multiple of `2 ^ -149`, the unit, so sums,
products, quotients and remainders are computed exactly on natural numbers
and rounded once.
-/

namespace ScriptEngine

structure Binary32 where
  bits : UInt32
deriving DecidableEq, Inhabited, Repr

namespace Binary32

/-- What a bit pattern stands for; a finite magnitude counts units of
`2 ^ -149`, and zero keeps its sign. -/
inductive Meaning where
  | nan
  | infinite (negative : Bool)
  | finite (negative : Bool) (units : Nat)
deriving DecidableEq, Repr

/-- The number of units in one. -/
def one : Nat := 1 <<< 149

/-- The weight of the sign bit. -/
def signBit : Nat := 0x80000000

/-- The weight of the lowest bit of the exponent, which is also that of the
leading bit that normal numbers have above their fraction. -/
def leadingBit : Nat := 0x800000

def isNegative (number : Binary32) : Bool :=
  signBit ≤ number.bits.toNat

def meaning (number : Binary32) : Meaning :=
  let magnitude := number.bits.toNat % signBit
  let exponent := magnitude / leadingBit
  let fraction := magnitude % leadingBit
  if exponent = 255 then
    if fraction = 0 then .infinite number.isNegative else .nan
  else if exponent = 0 then .finite number.isNegative fraction
  else .finite number.isNegative ((leadingBit + fraction) <<< (exponent - 1))

def isNaN (number : Binary32) : Bool :=
  match number.meaning with
  | .nan => true
  | _ => false

/-- The pattern with the given sign and 31 lower bits. -/
def ofSignAndMagnitude (negative : Bool) (magnitude : Nat) : Binary32 :=
  ⟨UInt32.ofNat ((if negative then signBit else 0) + magnitude)⟩

def nan : Binary32 := ⟨0x7FC00000⟩

def infinite (negative : Bool) : Binary32 := ofSignAndMagnitude negative 0x7F800000

def zero (negative : Bool) : Binary32 := ofSignAndMagnitude negative 0

/-- The number nearest to `numerator / denominator` units, ties to even.
A carry out of the fraction moves into the exponent, and a magnitude past
the largest finite one is infinite. -/
def ofRatio (negative : Bool) (numerator denominator : Nat) : Binary32 :=
  let shift := Rounding.excessBits 24 (numerator / denominator)
  let magnitude :=
    shift * leadingBit + Rounding.halfEven numerator (denominator <<< shift)
  if 0x7F800000 ≤ magnitude then infinite negative
  else ofSignAndMagnitude negative magnitude

/-- A finite magnitude with its sign, as an integer number of units. -/
def signedUnits (negative : Bool) (units : Nat) : Int :=
  if negative then -(units : Int) else units

def ofInt (number : Int) : Binary32 :=
  ofRatio (number < 0) (number.natAbs * one) 1

/-- The whole part of a finite number; nothing for the others. -/
def truncate? (number : Binary32) : Option Int :=
  match number.meaning with
  | .finite negative units => some (signedUnits negative (units / one))
  | _ => none

/-- The sign bit flipped, whatever the number. -/
def negate (number : Binary32) : Binary32 :=
  ⟨number.bits ^^^ 0x80000000⟩

/-- An exact sum of zero is negative only when both terms are. -/
def add (left right : Binary32) : Binary32 :=
  match left.meaning, right.meaning with
  | .nan, _ => nan
  | _, .nan => nan
  | .infinite leftSign, .infinite rightSign =>
      if leftSign = rightSign then infinite leftSign else nan
  | .infinite sign, .finite _ _ => infinite sign
  | .finite _ _, .infinite sign => infinite sign
  | .finite leftSign leftUnits, .finite rightSign rightUnits =>
      let sum := signedUnits leftSign leftUnits + signedUnits rightSign rightUnits
      if sum = 0 then zero (leftSign && rightSign)
      else ofRatio (sum < 0) sum.natAbs 1

def sub (left right : Binary32) : Binary32 :=
  left.add right.negate

def mul (left right : Binary32) : Binary32 :=
  match left.meaning, right.meaning with
  | .nan, _ => nan
  | _, .nan => nan
  | .infinite leftSign, .infinite rightSign => infinite (leftSign ^^ rightSign)
  | .infinite leftSign, .finite rightSign units =>
      if units = 0 then nan else infinite (leftSign ^^ rightSign)
  | .finite leftSign units, .infinite rightSign =>
      if units = 0 then nan else infinite (leftSign ^^ rightSign)
  | .finite leftSign leftUnits, .finite rightSign rightUnits =>
      ofRatio (leftSign ^^ rightSign) (leftUnits * rightUnits) one

def div (left right : Binary32) : Binary32 :=
  match left.meaning, right.meaning with
  | .nan, _ => nan
  | _, .nan => nan
  | .infinite _, .infinite _ => nan
  | .infinite leftSign, .finite rightSign _ => infinite (leftSign ^^ rightSign)
  | .finite leftSign _, .infinite rightSign => zero (leftSign ^^ rightSign)
  | .finite leftSign leftUnits, .finite rightSign rightUnits =>
      if rightUnits = 0 then
        if leftUnits = 0 then nan else infinite (leftSign ^^ rightSign)
      else ofRatio (leftSign ^^ rightSign) (leftUnits * one) rightUnits

/-- The remainder of the quotient truncated towards zero. It has the sign of
the dividend and needs no rounding. -/
def rem (left right : Binary32) : Binary32 :=
  match left.meaning, right.meaning with
  | .nan, _ => nan
  | _, .nan => nan
  | .infinite _, _ => nan
  | .finite _ _, .infinite _ => left
  | .finite sign leftUnits, .finite _ rightUnits =>
      if rightUnits = 0 then nan else ofRatio sign (leftUnits % rightUnits) 1

end Binary32

end ScriptEngine
