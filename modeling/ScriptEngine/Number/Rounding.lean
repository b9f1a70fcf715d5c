/-!
# Rounding to nearest, ties to even

Quotients of natural numbers rounded to a whole number, and natural numbers
rounded to a given count of significant bits.
-/

namespace ScriptEngine.Rounding

/-- The natural number nearest to `numerator / denominator`; of two equally
near ones the even one. -/
def halfEven (numerator denominator : Nat) : Nat :=
  let quotient := numerator / denominator
  let remainder := numerator % denominator
  if 2 * remainder < denominator then quotient
  else if denominator < 2 * remainder then quotient + 1
  else quotient + quotient % 2

/-- How many low bits of `number` lie below its `precision` leading ones. -/
def excessBits (precision number : Nat) : Nat :=
  number.log2 + 1 - precision

/-- `number` rounded to at most `precision` significant bits. -/
def toPrecision (precision number : Nat) : Nat :=
  let unit := 1 <<< excessBits precision number
  halfEven number unit * unit

theorem halfEven_one (number : Nat) : halfEven number 1 = number := by
  simp [halfEven, Nat.mod_one]

/-- A number that fits the precision is kept. -/
theorem toPrecision_eq_self {precision number : Nat}
    (fits : number.log2 < precision) : toPrecision precision number = number := by
  have none : excessBits precision number = 0 := by
    unfold excessBits
    omega
  simp [toPrecision, none, halfEven_one]

end ScriptEngine.Rounding
