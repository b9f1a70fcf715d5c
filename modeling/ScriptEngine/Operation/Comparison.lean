import ScriptEngine.Failure.Cause
import ScriptEngine.Heap.Equality
import ScriptEngine.Source.Operator

/-!
# Comparison

Numbers of every kind, strings, chars and truth values are ordered among
themselves. Two words are ordered as integers; any other mixture of numbers
is widened first. All remaining pairs know only structural equality.
-/

namespace ScriptEngine

def Scalar.isNumeric : Scalar → Bool
  | .int _ | .usize _ | .float _ => true
  | _ => false

/-- The number a scalar widens to; other scalars are no number. -/
def Scalar.quantity : Scalar → Quantity
  | .int value => .ofInt value.toInt
  | .usize value => .ofInt value.toNat
  | .float value => .ofBinary32 value
  | _ => .nan

/-- The order of two scalars that can be ordered; the inner option is empty
for numbers that have no order. -/
def Scalar.ordering? : Scalar → Scalar → Option (Option Ordering)
  | .int left, .int right => some (some (compare left.toInt right.toInt))
  | .usize left, .usize right => some (some (compare left.toNat right.toNat))
  | .int left, .usize right => some (some (compare left.toInt (right.toNat : Int)))
  | .usize left, .int right => some (some (compare (left.toNat : Int) right.toInt))
  | .string left, .string right => some (some (compare left right))
  | .char left, .char right => some (some (compare left.toNat right.toNat))
  | .bool left, .bool right => some (some (compare left.toNat right.toNat))
  | left, right =>
      if left.isNumeric && right.isNumeric then
        some (left.quantity.compare right.quantity)
      else .none

namespace Heap

/-- The order of two objects that can be ordered. -/
def ordering? (heap : Heap) (left right : Address) : Option (Option Ordering) :=
  match heap.scalar? left, heap.scalar? right with
  | some leftValue, some rightValue => leftValue.ordering? rightValue
  | _, _ => none

def comparison (heap : Heap) (operator : ComparisonOperator) (left right : Address) :
    Except Cause Bool :=
  match heap.ordering? left right with
  | some ordering => .ok (operator.accepts ordering)
  | none =>
      match operator with
      | .equal => .ok (heap.equals left right)
      | .notEqual => .ok (!heap.equals left right)
      | _ =>
          .error (.operandMismatch operator.symbol (heap.kind left).name
            (heap.kind right).name)

end Heap

end ScriptEngine
