import ScriptEngine.Source.Interner
import ScriptEngine.Source.Operator
import ScriptEngine.Source.Span
import ScriptEngine.Source.StaticType

/-!
# Syntax

Expressions, statements and functions refer to one another by number. A
float literal is kept as its bits, and a string literal as an interned name.
-/

namespace ScriptEngine

structure ExpressionId where
  index : Nat
deriving DecidableEq, Hashable, Repr, Inhabited

structure StatementId where
  index : Nat
deriving DecidableEq, Hashable, Repr, Inhabited

structure FunctionId where
  index : Nat
deriving DecidableEq, Hashable, Repr, Inhabited

inductive Literal where
  | none
  | int (value : Int64)
  | usize (value : UInt64)
  | float (bits : UInt32)
  | bool (value : Bool)
  | char (value : Char)
  | string (contents : Name)
deriving DecidableEq, Repr

namespace Literal

def type : Literal → StaticType
  | .none => .none
  | .int _ => .int
  | .usize _ => .usize
  | .float _ => .float
  | .bool _ => .bool
  | .char _ => .char
  | .string _ => .string

end Literal

/-- What a call names: a built-in function, found by its name when the call
runs, or a function of the program. -/
inductive Callee where
  | builtin (name : Name)
  | user (function : FunctionId)
deriving DecidableEq, Repr

inductive Expression where
  | literal (value : Literal)
  | reference (name : Name)
  | unary (operator : UnaryOperator) (operand : ExpressionId)
  /-- A chain of operands, applied from left to right. -/
  | arithmetic (first : ExpressionId) (rest : List (ArithmeticOperator × ExpressionId))
  /-- A chain of operands, every adjacent pair of which is compared. -/
  | comparison (first : ExpressionId) (rest : List (ComparisonOperator × ExpressionId))
  /-- A conversion to the type recorded for this expression. -/
  | cast (source : ExpressionId)
  | vector (elements : List ExpressionId)
  | dict (entries : List (ExpressionId × ExpressionId))
  | range (start stop : ExpressionId)
  | index (base : ExpressionId) (indices : List ExpressionId)
  | call (callee : Callee) (arguments : List ExpressionId)
  /-- The target must be a variable or a chain of indices on one. -/
  | assign (target value : ExpressionId)
deriving DecidableEq, Repr

/-- A statement list with a scope of its own. -/
structure Block where
  statements : List StatementId
  span : Span
deriving DecidableEq, Repr, Inhabited

inductive Statement where
  | expression (value : ExpressionId)
  /-- Without a value the variable starts as the default of the declared type. -/
  | declare (name : Name) (value : Option ExpressionId)
  | block (body : Block)
  | branch (condition : ExpressionId) (body : Block) (otherwise : Option StatementId)
  | forEach (name : Name) (iterable : ExpressionId) (body : Block)
  | whileLoop (condition : ExpressionId) (body : Block)
  | doWhile (body : Block) (condition : ExpressionId)
  | forever (body : Block)
  | breakLoop
  | continueLoop
  | giveBack (value : Option ExpressionId)
deriving DecidableEq, Repr

namespace Statement

/-- The block a statement holds, if it holds one. -/
def body? : Statement → Option Block
  | .block body => some body
  | .branch _ body _ => some body
  | .forEach _ _ body => some body
  | .whileLoop _ body => some body
  | .doWhile body _ => some body
  | .forever body => some body
  | _ => none

end Statement

structure Parameter where
  name : Name
  type : StaticType
deriving Repr

structure Function where
  name : Name
  parameters : List Parameter
  result : StaticType
  body : Block
  span : Span
deriving Repr

end ScriptEngine
