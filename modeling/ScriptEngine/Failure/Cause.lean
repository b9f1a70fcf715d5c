/-!
# Causes of failure

Every way in which a run can fail, with its message. A cause is a fault of
the running script, or a state that a script that has passed type checking
never reaches.
-/

namespace ScriptEngine

inductive FaultClass where
  | runtime
  | invariant
deriving DecidableEq, Repr

namespace FaultClass

def name : FaultClass → String
  | .runtime => "runtime"
  | .invariant => "invariant"

/-- The exit status for a process that stops on such a failure. -/
def exitStatus : FaultClass → Nat
  | .runtime => 1
  | .invariant => 70

end FaultClass

inductive Cause where
  | indexOutOfRange (index : String) (length : Nat)
  | invalidIndexType (kind : String)
  | keyNotFound (key : String)
  | typeMismatch (expected actual : String)
  | invalidOperator (symbol kind : String)
  | operandMismatch (symbol left right : String)
  | divisionByZero
  | moduloByZero
  | integerOverflow (operation : String)
  | invalidCast (source target : String)
  | stackOverflow (limit : Nat)
  | builtinFailed (name reason : String)
  | undefinedVariable (name : String)
  | breakOutsideLoop
  | continueOutsideLoop
  | returnOutsideFunction
  | missingResult (function : String)
  | notIndexable (kind : String)
  | invalidAssignmentTarget
  | arityMismatch (name : String) (expected actual : Nat)
  | unknownBuiltin (name : String)
  | missingType (node : String)
deriving DecidableEq, Repr

namespace Cause

def message : Cause → String
  | indexOutOfRange index length =>
      "index " ++ index ++ " out of range (length " ++ toString length ++ ")"
  | invalidIndexType kind => "cannot index with a value of type " ++ kind
  | keyNotFound key => "key not found: " ++ key
  | typeMismatch expected actual =>
      "type mismatch: expected " ++ expected ++ ", got " ++ actual
  | invalidOperator symbol kind =>
      "operator `" ++ symbol ++ "` cannot be applied to " ++ kind
  | operandMismatch symbol left right =>
      "operator `" ++ symbol ++ "` cannot be applied to " ++ left ++ " and " ++ right
  | divisionByZero => "division by zero"
  | moduloByZero => "modulo by zero"
  | integerOverflow operation => "integer overflow in " ++ operation
  | invalidCast source target => "invalid cast from " ++ source ++ " to " ++ target
  | stackOverflow limit =>
      "maximum call depth exceeded (limit: " ++ toString limit ++ ")"
  | builtinFailed name reason => name ++ ": " ++ reason
  | undefinedVariable name => "undefined variable: " ++ name
  | breakOutsideLoop => "`break` outside of a loop"
  | continueOutsideLoop => "`continue` outside of a loop"
  | returnOutsideFunction => "`return` outside of a function"
  | missingResult function =>
      "function " ++ function ++ " finished without producing a result"
  | notIndexable kind => "cannot index a value of type " ++ kind
  | invalidAssignmentTarget => "invalid assignment target"
  | arityMismatch name expected actual =>
      name ++ " expects " ++ toString expected ++ " argument(s), got " ++ toString actual
  | unknownBuiltin name => "unknown built-in function: " ++ name
  | missingType node => "no static type recorded for " ++ node

def faultClass : Cause → FaultClass
  | indexOutOfRange .. | invalidIndexType .. | keyNotFound .. | typeMismatch ..
  | invalidOperator .. | operandMismatch .. | divisionByZero | moduloByZero
  | integerOverflow .. | invalidCast .. | stackOverflow .. | builtinFailed .. => .runtime
  | undefinedVariable .. | breakOutsideLoop | continueOutsideLoop
  | returnOutsideFunction | missingResult .. | notIndexable .. | invalidAssignmentTarget
  | arityMismatch .. | unknownBuiltin .. | missingType .. => .invariant

end Cause

end ScriptEngine
