import ScriptEngine.Number.Decimal
import ScriptEngine.Number.Quantity
import ScriptEngine.Source.StaticType

/-!
# Scalars

The values without parts. Two scalars are equal only if they are of one
kind; comparing numbers of different kinds is left to the comparison
operators.
-/

namespace ScriptEngine

inductive Scalar where
  | none
  | int (value : Int64)
  | usize (value : UInt64)
  | float (value : Binary32)
  | bool (value : Bool)
  | char (value : Char)
  | string (value : String)
  /-- The integers from `start` up to and without `stop`. -/
  | range (start stop : Int64)
deriving DecidableEq, Repr

namespace Scalar

def kind : Scalar → Kind
  | .none => .none
  | .int _ => .int
  | .usize _ => .usize
  | .float _ => .float
  | .bool _ => .bool
  | .char _ => .char
  | .string _ => .string
  | .range _ _ => .range

/-- The type of a scalar that an operator computes. -/
def type (scalar : Scalar) : StaticType :=
  .ofKind scalar.kind

def equals : Scalar → Scalar → Bool
  | .none, .none => true
  | .int left, .int right => left == right
  | .usize left, .usize right => left == right
  | .float left, .float right => left.agrees right
  | .bool left, .bool right => left == right
  | .char left, .char right => left == right
  | .string left, .string right => left == right
  | .range leftStart leftStop, .range rightStart rightStop =>
      leftStart == rightStart && leftStop == rightStop
  | _, _ => false

/-- Text that stands inside a vector or dict is quoted, without escapes. -/
def render (nested : Bool) : Scalar → String
  | .none => "none"
  | .int value => toString value.toInt
  | .usize value => toString value.toNat
  | .float value => Decimal.ofBinary32 value
  | .bool value => if value then "true" else "false"
  | .char value => if nested then "'" ++ value.toString ++ "'" else value.toString
  | .string value => if nested then "\"" ++ value ++ "\"" else value
  | .range start stop => toString start.toInt ++ ".." ++ toString stop.toInt

/-- The value that a variable of a scalar kind starts with. -/
def default? : Kind → Option Scalar
  | .none | .args => some .none
  | .int => some (.int 0)
  | .usize => some (.usize 0)
  | .float => some (.float (.zero false))
  | .bool => some (.bool false)
  | .char => some (.char (Char.ofNat 0))
  | .string => some (.string "")
  | .range => some (.range 0 0)
  | .vector | .dict => Option.none

end Scalar

end ScriptEngine
