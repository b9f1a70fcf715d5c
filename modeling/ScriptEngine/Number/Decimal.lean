import ScriptEngine.Number.Binary32

/-!
# Fixed-point decimal text

A single-precision number is written with six decimal places, correctly
rounded from its exact value with ties to even. The sign is written for
every negative number, zero included.
-/

namespace ScriptEngine.Decimal

/-- The digits of `number`, padded with zeros on the left to `width`. -/
def padded (width number : Nat) : String :=
  let digits := toString number
  String.ofList (List.replicate (width - digits.length) '0') ++ digits

def places : Nat := 6

/-- The power of ten that has as many zeros as there are places. -/
def scale : Nat := 1000000

def ofBinary32 (number : Binary32) : String :=
  match number.meaning with
  | .nan => "NaN"
  | .infinite negative => if negative then "-inf" else "inf"
  | .finite negative units =>
      let scaled := Rounding.halfEven (units * scale) Binary32.one
      let digits := toString (scaled / scale) ++ "." ++ padded places (scaled % scale)
      if negative then "-" ++ digits else digits

end ScriptEngine.Decimal
