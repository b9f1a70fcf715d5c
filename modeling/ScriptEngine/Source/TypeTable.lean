import Std.Data.HashMap
import ScriptEngine.Source.Syntax

/-!
# Recorded types

The static types that a program records for its expressions and for its
declarations. A later record for the same node replaces the earlier one.
-/

namespace ScriptEngine

structure TypeTable where
  expressions : Std.HashMap ExpressionId StaticType := {}
  declarations : Std.HashMap StatementId StaticType := {}
deriving Inhabited

namespace TypeTable

def empty : TypeTable := {}

def recordExpression (table : TypeTable) (id : ExpressionId) (type : StaticType) :
    TypeTable :=
  { table with expressions := table.expressions.insert id type }

def recordDeclaration (table : TypeTable) (id : StatementId) (type : StaticType) :
    TypeTable :=
  { table with declarations := table.declarations.insert id type }

def expression? (table : TypeTable) (id : ExpressionId) : Option StaticType :=
  table.expressions[id]?

def declaration? (table : TypeTable) (id : StatementId) : Option StaticType :=
  table.declarations[id]?

def size (table : TypeTable) : Nat :=
  table.expressions.size + table.declarations.size

def isEmpty (table : TypeTable) : Bool :=
  table.expressions.isEmpty && table.declarations.isEmpty

@[simp] theorem expression?_recordExpression (table : TypeTable)
    (id : ExpressionId) (type : StaticType) :
    (table.recordExpression id type).expression? id = some type := by
  simp [recordExpression, expression?]

@[simp] theorem declaration?_recordDeclaration (table : TypeTable)
    (id : StatementId) (type : StaticType) :
    (table.recordDeclaration id type).declaration? id = some type := by
  simp [recordDeclaration, declaration?]

end TypeTable

end ScriptEngine
