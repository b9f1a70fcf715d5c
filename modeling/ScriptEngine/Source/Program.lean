import ScriptEngine.Source.TypeTable

/-!
# Programs

A program numbers its expressions, statements and functions in the order in
which they were added, and carries the types recorded for them and the names
they use. A number that was never issued names nothing.
-/

namespace ScriptEngine

structure Program where
  expressions : Array (Located Expression) := #[]
  statements : Array (Located Statement) := #[]
  functions : Array Function := #[]
  types : TypeTable := {}
  names : Interner := .initial
deriving Inhabited

namespace Program

def expression? (program : Program) (id : ExpressionId) : Option (Located Expression) :=
  program.expressions[id.index]?

def statement? (program : Program) (id : StatementId) : Option (Located Statement) :=
  program.statements[id.index]?

def function? (program : Program) (id : FunctionId) : Option Function :=
  program.functions[id.index]?

/-- The first function of the given name. -/
def findFunction? (program : Program) (name : Name) : Option FunctionId :=
  (program.functions.findIdx? (·.name == name)).map FunctionId.mk

def intern (program : Program) (string : String) : Name × Program :=
  let (name, names) := program.names.intern string
  (name, { program with names := names })

def addExpression (program : Program) (expression : Expression) (span : Span) :
    ExpressionId × Program :=
  (⟨program.expressions.size⟩,
    { program with expressions := program.expressions.push ⟨expression, span⟩ })

def addStatement (program : Program) (statement : Statement) (span : Span) :
    StatementId × Program :=
  (⟨program.statements.size⟩,
    { program with statements := program.statements.push ⟨statement, span⟩ })

def addFunction (program : Program) (function : Function) : FunctionId × Program :=
  (⟨program.functions.size⟩,
    { program with functions := program.functions.push function })

def recordExpression (program : Program) (id : ExpressionId) (type : StaticType) :
    Program :=
  { program with types := program.types.recordExpression id type }

def recordDeclaration (program : Program) (id : StatementId) (type : StaticType) :
    Program :=
  { program with types := program.types.recordDeclaration id type }

/-- Change a function in place; nothing for a function that does not exist. -/
def modifyFunction? (program : Program) (id : FunctionId)
    (change : Function → Function) : Option Program :=
  if id.index < program.functions.size then
    some { program with functions := program.functions.modify id.index change }
  else none

end Program

end ScriptEngine
