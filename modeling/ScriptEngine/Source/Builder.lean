import ScriptEngine.Source.Program

/-!
# Program builder

A builder adds nodes one by one. Each expression, statement and function
takes the next unit span, and every node whose meaning depends on a type has
that type recorded as it is added. An operation that has to look at an
earlier node gives nothing if there is no such node.
-/

namespace ScriptEngine

structure Builder where
  program : Program := {}
  cursor : Nat := 0
deriving Inhabited

namespace Builder

def initial : Builder := {}

def intern (builder : Builder) (string : String) : Name × Builder :=
  let (name, program) := builder.program.intern string
  (name, { builder with program := program })

/-- The next span and the builder past it. -/
def nextSpan (builder : Builder) : Span × Builder :=
  (⟨builder.cursor, builder.cursor + 1⟩, { builder with cursor := builder.cursor + 1 })

def expression (builder : Builder) (expression : Expression) : ExpressionId × Builder :=
  let (span, builder) := builder.nextSpan
  let (id, program) := builder.program.addExpression expression span
  (id, { builder with program := program })

def typedExpression (builder : Builder) (expression : Expression) (type : StaticType) :
    ExpressionId × Builder :=
  let (id, builder) := builder.expression expression
  (id, { builder with program := builder.program.recordExpression id type })

def statement (builder : Builder) (statement : Statement) : StatementId × Builder :=
  let (span, builder) := builder.nextSpan
  let (id, program) := builder.program.addStatement statement span
  (id, { builder with program := program })

/-! ## Expressions -/

def literal (builder : Builder) (value : Literal) : ExpressionId × Builder :=
  builder.typedExpression (.literal value) value.type

def string (builder : Builder) (contents : String) : ExpressionId × Builder :=
  let (name, builder) := builder.intern contents
  builder.literal (.string name)

def reference (builder : Builder) (name : String) : ExpressionId × Builder :=
  let (name, builder) := builder.intern name
  builder.expression (.reference name)

def unary (builder : Builder) (operator : UnaryOperator) (operand : ExpressionId) :
    ExpressionId × Builder :=
  builder.expression (.unary operator operand)

def arithmetic (builder : Builder) (first : ExpressionId)
    (rest : List (ArithmeticOperator × ExpressionId)) : ExpressionId × Builder :=
  builder.expression (.arithmetic first rest)

def comparison (builder : Builder) (first : ExpressionId)
    (rest : List (ComparisonOperator × ExpressionId)) : ExpressionId × Builder :=
  builder.expression (.comparison first rest)

def cast (builder : Builder) (source : ExpressionId) (target : StaticType) :
    ExpressionId × Builder :=
  builder.typedExpression (.cast source) target

def vector (builder : Builder) (elements : List ExpressionId) (element : StaticType) :
    ExpressionId × Builder :=
  builder.typedExpression (.vector elements) (.vector element)

def dict (builder : Builder) (entries : List (ExpressionId × ExpressionId))
    (key value : StaticType) : ExpressionId × Builder :=
  builder.typedExpression (.dict entries) (.dict key value)

def range (builder : Builder) (start stop : ExpressionId) : ExpressionId × Builder :=
  builder.typedExpression (.range start stop) .range

def index (builder : Builder) (base : ExpressionId) (indices : List ExpressionId) :
    ExpressionId × Builder :=
  builder.expression (.index base indices)

/-- A call has the result type that its function declares at this moment. -/
def call? (builder : Builder) (function : FunctionId) (arguments : List ExpressionId) :
    Option (ExpressionId × Builder) :=
  (builder.program.function? function).map fun callee =>
    builder.typedExpression (.call (.user function) arguments) callee.result

def callBuiltin (builder : Builder) (name : String) (arguments : List ExpressionId) :
    ExpressionId × Builder :=
  let (name, builder) := builder.intern name
  builder.expression (.call (.builtin name) arguments)

def assign (builder : Builder) (target value : ExpressionId) : ExpressionId × Builder :=
  builder.expression (.assign target value)

/-! ## Statements -/

def expressionStatement (builder : Builder) (value : ExpressionId) :
    StatementId × Builder :=
  builder.statement (.expression value)

def declareValue (builder : Builder) (name : String) (value : ExpressionId) :
    StatementId × Builder :=
  let (name, builder) := builder.intern name
  builder.statement (.declare name (some value))

def declareDefault (builder : Builder) (name : String) (type : StaticType) :
    StatementId × Builder :=
  let (name, builder) := builder.intern name
  let (id, builder) := builder.statement (.declare name none)
  (id, { builder with program := builder.program.recordDeclaration id type })

/-- The block of the given statements; its span covers theirs. -/
def block? (builder : Builder) (statements : List StatementId) : Option Block :=
  (statements.mapM fun id => (builder.program.statement? id).map (·.span)).map
    fun spans => ⟨statements, Span.cover spans⟩

def blockStatement? (builder : Builder) (statements : List StatementId) :
    Option (StatementId × Builder) :=
  (builder.block? statements).map fun body => builder.statement (.block body)

def branch? (builder : Builder) (condition : ExpressionId)
    (statements : List StatementId) (otherwise : Option StatementId) :
    Option (StatementId × Builder) :=
  (builder.block? statements).map fun body =>
    builder.statement (.branch condition body otherwise)

def forEach? (builder : Builder) (name : String) (iterable : ExpressionId)
    (statements : List StatementId) : Option (StatementId × Builder) :=
  let (name, builder) := builder.intern name
  (builder.block? statements).map fun body =>
    builder.statement (.forEach name iterable body)

def whileLoop? (builder : Builder) (condition : ExpressionId)
    (statements : List StatementId) : Option (StatementId × Builder) :=
  (builder.block? statements).map fun body =>
    builder.statement (.whileLoop condition body)

def doWhile? (builder : Builder) (statements : List StatementId)
    (condition : ExpressionId) : Option (StatementId × Builder) :=
  (builder.block? statements).map fun body =>
    builder.statement (.doWhile body condition)

def forever? (builder : Builder) (statements : List StatementId) :
    Option (StatementId × Builder) :=
  (builder.block? statements).map fun body => builder.statement (.forever body)

def breakLoop (builder : Builder) : StatementId × Builder :=
  builder.statement .breakLoop

def continueLoop (builder : Builder) : StatementId × Builder :=
  builder.statement .continueLoop

def giveBack (builder : Builder) (value : Option ExpressionId) : StatementId × Builder :=
  builder.statement (.giveBack value)

/-! ## Functions -/

/-- A function without a body yet, so that its body can call it. -/
def declareFunction (builder : Builder) (name : String)
    (parameters : List (String × StaticType)) (result : StaticType) :
    FunctionId × Builder :=
  let (name, builder) := builder.intern name
  let (parameterNames, names) :=
    builder.program.names.internAll (parameters.map Prod.fst)
  let (span, builder) := builder.nextSpan
  let (id, program) := { builder.program with names := names }.addFunction {
    name := name
    parameters := List.zipWith Parameter.mk parameterNames (parameters.map Prod.snd)
    result := result
    body := ⟨[], .empty⟩
    span := span }
  (id, { builder with program := program })

def defineBody? (builder : Builder) (function : FunctionId)
    (statements : List StatementId) : Option Builder := do
  let body ← builder.block? statements
  let program ← builder.program.modifyFunction? function ({ · with body := body })
  return { builder with program := program }

def function? (builder : Builder) (name : String)
    (parameters : List (String × StaticType)) (result : StaticType)
    (statements : List StatementId) : Option (FunctionId × Builder) := do
  let (id, builder) := builder.declareFunction name parameters result
  let builder ← builder.defineBody? id statements
  return (id, builder)

end Builder

end ScriptEngine
