import ScriptEngine.Interpreter.Literal
import ScriptEngine.Operation.Arithmetic
import ScriptEngine.Operation.Cast
import ScriptEngine.Operation.Comparison

/-!
# Expressions

How each kind of expression is evaluated from the evaluations of its parts.
Every result is a handle that the caller owns; a part that fails gives back
the handles collected so far.
-/

namespace ScriptEngine

/-- The span of an expression, empty for one that does not exist. -/
def Program.spanOf (program : Program) (id : ExpressionId) : Span :=
  match program.expression? id with
  | some located => located.span
  | none => .empty

namespace Evaluation

variable (setup : Setup) (operands : Operands)

/-! ## Operators -/

/-- Apply an arithmetic operator and give both operands back. -/
def applyArithmetic (operator : ArithmeticOperator) (left right : Address) :
    Evaluation Address :=
  holding [left, right] do
    let result ← read fun state =>
      match state.heap.payload? left, state.heap.payload? right with
      | some leftPayload, some rightPayload =>
          arithmetic operator leftPayload rightPayload
      | _, _ => .error (.invalidOperator operator.symbol "none")
    let value ← ofExcept result
    newScalar value

def arithmeticChain (left : Address) :
    List (ArithmeticOperator × ExpressionId) → Evaluation Address
  | [] => pure left
  | (operator, operand) :: rest => do
      let right ← guarding [left] (operands.evaluate operand)
      let result ← applyArithmetic operator left right
      arithmeticChain result rest

/-- Compare adjacent operands until a pair fails to hold. -/
def comparisonChain (left : Address) :
    List (ComparisonOperator × ExpressionId) → Evaluation Address
  | [] => holding [left] (newScalar (.bool true))
  | (operator, operand) :: rest => do
      let right ← guarding [left] (operands.evaluate operand)
      let result ← read fun state => state.heap.comparison operator left right
      let holds ← guarding [left, right] (ofExcept result)
      if holds then
        release [left]
        comparisonChain right rest
      else
        holding [left, right] (newScalar (.bool false))

def applyUnary (operator : UnaryOperator) (operand : Address) : Evaluation Address :=
  holding [operand] do
    let result ← read fun state =>
      match state.heap.payload? operand with
      | some payload => unaryResult operator payload
      | none => .error (.invalidOperator operator.symbol "none")
    match ← ofExcept result with
    | some value => newScalar value
    | none => retain operand

def applyCast (source : Address) (target : StaticType) : Evaluation Address :=
  holding [source] do
    let result ← read fun state =>
      match state.heap.payload? source with
      | some payload => conversion payload target
      | none => .error (.invalidCast "none" target.text)
    match ← ofExcept result with
    | .computed value => newScalar value
    | .duplicate => copy source

/-! ## Containers and ranges -/

/-- Evaluate expressions from left to right. -/
def evaluateAll : List ExpressionId → Evaluation (List Address)
  | [] => pure []
  | id :: others => do
      let first ← operands.evaluate id
      let rest ← guarding [first] (evaluateAll others)
      pure (first :: rest)

/-- Evaluate pairs from left to right, each key before its value. -/
def evaluatePairs :
    List (ExpressionId × ExpressionId) → Evaluation (List (Address × Address))
  | [] => pure []
  | (key, value) :: others => do
      let keyAddress ← operands.evaluate key
      let valueAddress ← guarding [keyAddress] (operands.evaluate value)
      let rest ← guarding [keyAddress, valueAddress] (evaluatePairs others)
      pure ((keyAddress, valueAddress) :: rest)

/-- The type recorded for an expression that cannot be evaluated without. -/
def recordedType (id : ExpressionId) : Evaluation StaticType :=
  match setup.program.types.expression? id with
  | some type => pure type
  | none => fail (.missingType id.outline)

def vector (id : ExpressionId) (elements : List ExpressionId) : Evaluation Address := do
  let type ← recordedType setup id
  let addresses ← evaluateAll operands elements
  onHeap (·.newVector (type.parameter 0) addresses)

def dict (id : ExpressionId) (entries : List (ExpressionId × ExpressionId)) :
    Evaluation Address := do
  let type ← recordedType setup id
  let pairs ← evaluatePairs operands entries
  onHeap (·.newDict (type.parameter 0) (type.parameter 1) pairs)

/-- A bound of a range: an integer, or an unsigned word that is one. -/
def bound (id : ExpressionId) : Evaluation Int64 := do
  let address ← operands.evaluate id
  holding [address] do
    let result ← read fun state =>
      let number? :=
        match state.heap.scalar? address with
        | some (.int number) => some number
        | some (.usize number) => int64? number.toNat
        | _ => none
      match number? with
      | some number => Except.ok number
      | none => .error (.typeMismatch "int" (state.heap.kind address).name)
    ofExcept result

def range (start stop : ExpressionId) : Evaluation Address := do
  let first ← bound operands start
  let last ← bound operands stop
  newScalar (.range first last)

/-! ## Variables and indices -/

/-- A handle on the object bound to a name. -/
def shareVariable (name : Name) : Evaluation Address :=
  fun state =>
    match state.lookup? name with
    | some address => retain address state
    | none => fail (.undefinedVariable (setup.program.names.lookup name)) state

def variableCopy (name : Name) : Evaluation Address :=
  fun state =>
    match state.lookup? name with
    | some address => copy address state
    | none => fail (.undefinedVariable (setup.program.names.lookup name)) state

/-- A handle on `container[key]`; both operands are given back. -/
def readElement (container key : Address) : Evaluation Address := do
  let result ← holding [container] (onHeap (·.readElement container key))
  ofExcept result

/-- Follow keys from a container to the object they lead to. -/
def indexChain (container : Address) : List ExpressionId → Evaluation Address
  | [] => pure container
  | index :: others => do
      let key ← guarding [container] (operands.evaluate index)
      let element ← located (setup.program.spanOf index) (readElement container key)
      indexChain element others

def shareIndexed (base : ExpressionId) (indices : List ExpressionId) :
    Evaluation Address := do
  let container ← operands.share base
  indexChain setup operands container indices

end Evaluation

end ScriptEngine
