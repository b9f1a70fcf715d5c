import ScriptEngine.Failure.Cause
import ScriptEngine.Heap.Basic
import ScriptEngine.Number.Fixed
import ScriptEngine.Source.Operator

/-!
# Arithmetic

Both operands must be of one kind. Integers are computed exactly and must
fit their word; single-precision numbers follow their own arithmetic, where
nothing fails; strings can be joined.
-/

namespace ScriptEngine

/-- Exact integer arithmetic with the result narrowed to a word. Quotients
are truncated towards zero, and the quotient of a remainder must fit too. -/
def integerArithmetic {α : Type} (narrow? : Int → Option α)
    (operator : ArithmeticOperator) (left right : Int) : Except Cause α :=
  let checked := fun number =>
    match narrow? number with
    | some word => .ok word
    | none => .error (.integerOverflow operator.operation)
  match operator with
  | .add => checked (left + right)
  | .subtract => checked (left - right)
  | .multiply => checked (left * right)
  | .divide => if right = 0 then .error .divisionByZero else checked (left.tdiv right)
  | .remainder =>
      if right = 0 then .error .moduloByZero
      else
        match checked (left.tdiv right) with
        | .ok _ => checked (left.tmod right)
        | .error cause => .error cause

def floatArithmetic : ArithmeticOperator → Binary32 → Binary32 → Binary32
  | .add => Binary32.add
  | .subtract => Binary32.sub
  | .multiply => Binary32.mul
  | .divide => Binary32.div
  | .remainder => Binary32.rem

/-- Why an operator cannot take operands of these kinds. -/
def unsuitable (symbol : String) (left right : Kind) : Cause :=
  if left = right then .invalidOperator symbol left.name
  else .operandMismatch symbol left.name right.name

def arithmetic (operator : ArithmeticOperator) : Payload → Payload → Except Cause Scalar
  | .scalar (.int left), .scalar (.int right) =>
      (integerArithmetic int64? operator left.toInt right.toInt).map Scalar.int
  | .scalar (.usize left), .scalar (.usize right) =>
      (integerArithmetic uint64? operator left.toNat right.toNat).map Scalar.usize
  | .scalar (.float left), .scalar (.float right) =>
      .ok (.float (floatArithmetic operator left right))
  | .scalar (.string left), .scalar (.string right) =>
      match operator with
      | .add => .ok (.string (left ++ right))
      | _ => .error (unsuitable operator.symbol .string .string)
  | left, right => .error (unsuitable operator.symbol left.kind right.kind)

/-- Apply a unary operator; `+` on a number gives the operand itself, here
`none`. -/
def unaryResult (operator : UnaryOperator) (operand : Payload) :
    Except Cause (Option Scalar) :=
  match operator, operand with
  | .keep, .scalar (.int _) => .ok none
  | .keep, .scalar (.usize _) => .ok none
  | .keep, .scalar (.float _) => .ok none
  | .negate, .scalar (.int number) =>
      match int64? (-number.toInt) with
      | some word => .ok (some (.int word))
      | none => .error (.integerOverflow "negation")
  | .negate, .scalar (.float number) => .ok (some (.float number.negate))
  | .invert, .scalar (.bool truth) => .ok (some (.bool !truth))
  | _, _ => .error (.invalidOperator operator.symbol operand.kind.name)

end ScriptEngine
