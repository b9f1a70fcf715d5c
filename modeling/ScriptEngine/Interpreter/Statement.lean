import ScriptEngine.Interpreter.Expression

/-!
# Statements

Control flow is signalled through flags: `continue` marks scope frames,
`break` the innermost loop and `return` the current call. A statement list
stops after a statement that leaves a signal, and the construct that a
signal is meant for removes it together with its own frame.
-/

namespace ScriptEngine

/-- What a `for` loop has still to bind. The elements and entries of a
container are copied one by one as the loop reaches them. -/
inductive Items where
  | integers (next stop : Int64)
  | elements (source : Address) (position : Nat)
  | entries (source : Address) (position : Nat) (pairType : StaticType)
deriving Repr

namespace Items

/-- The element type of the pair bound for a dict entry: the type of keys
and values if they agree. -/
def pairType (dict : StaticType) : StaticType :=
  let key := dict.parameter 0
  if key.agrees (dict.parameter 1) then key else .args

/-- The items of an iterable object. -/
def of? (heap : Heap) (source : Address) : Option Items :=
  match heap.payload? source with
  | some (.scalar (.range start stop)) => some (.integers start stop)
  | some (.vector _) => some (.elements source 0)
  | some (.dict _) => some (.entries source 0 (pairType (heap.type source)))
  | _ => none

/-- The next item, newly allocated, and those after it. -/
def next? (items : Items) (heap : Heap) : Option (Address × Items) × Heap :=
  match items with
  | .integers next stop =>
      if next.toInt < stop.toInt then
        let (value, heap) := heap.newScalar (.int next)
        (some (value, .integers (next + 1) stop), heap)
      else (none, heap)
  | .elements source position =>
      match heap.element? source position with
      | some element =>
          let (value, heap) := heap.copy element
          (some (value, .elements source (position + 1)), heap)
      | none => (none, heap)
  | .entries source position pairType =>
      match heap.entry? source position with
      | some entry =>
          let (key, heap) := heap.copy entry.1
          let (value, heap) := heap.copy entry.2
          let (pair, heap) := heap.newVector pairType [key, value]
          (some (pair, .entries source (position + 1) pairType), heap)
      | none => (none, heap)

end Items

namespace Evaluation

variable (setup : Setup) (operands : Operands) (nested : Nested)

/-! ## Values that statements need -/

/-- The truth value of a condition. -/
def condition (id : ExpressionId) : Evaluation Bool := do
  let address ← operands.evaluate id
  holding [address] do
    let result ← read fun state =>
      match state.heap.scalar? address with
      | some (.bool truth) => Except.ok truth
      | _ => .error (.typeMismatch "bool" (state.heap.kind address).name)
    located (setup.program.spanOf id) (ofExcept result)

/-- The value a declaration starts with. -/
def initialValue (id : StatementId) : Option ExpressionId → Evaluation Address
  | some value => operands.evaluate value
  | none =>
      match setup.program.types.declaration? id with
      | some type => onHeap (·.newDefault type)
      | none => fail (.missingType id.outline)

def declareVariable (id : StatementId) (name : Name) (value : Option ExpressionId) :
    Evaluation Unit := do
  let address ← initialValue setup operands id value
  declare name address

/-- The value that the current call is to give back. -/
def resultValue (value : Option ExpressionId) : Evaluation Address := do
  if ← read (·.calls.current?.isNone) then fail .returnOutsideFunction
  else
    match value with
    | some id => operands.evaluate id
    | none => newScalar .none

/-! ## Statement lists -/

/-- Run statements in order until one leaves a signal. -/
def sequence : List StatementId → Evaluation Unit
  | [] => pure ()
  | statement :: others => do
      nested.execute statement
      if ← read State.hasSignal then pure () else sequence others

def block (body : Block) : Evaluation Unit :=
  inScope (sequence nested body.statements)

/-! ## Loops -/

/-- Run one iteration in a scope frame of its own; whether the loop may go
on. -/
def iteration (binding : Option (Name × Address)) (body : Block) : Evaluation Bool :=
  inScope do
    match binding with
    | some (name, value) => declare name value
    | none => pure ()
    sequence nested body.statements
    read (!·.loopFinished)

def forEachFrom (name : Name) (body : Block) : Nat → Items → Evaluation Unit
  | 0, _ => stop .outOfFuel
  | count + 1, items => do
      match ← onHeap items.next? with
      | none => pure ()
      | some (value, items) =>
          if ← iteration nested (some (name, value)) body then
            forEachFrom name body count items
          else pure ()

def forEach (name : Name) (iterable : ExpressionId) (body : Block) : Evaluation Unit := do
  let source ← nested.evaluate iterable
  let items? ← read fun state => Items.of? state.heap source
  match items? with
  | some (.integers next stop) =>
      release [source]
      inLoop (forEachFrom nested name body nested.iterations (.integers next stop))
  | some items =>
      holding [source] (inLoop (forEachFrom nested name body nested.iterations items))
  | none =>
      holding [source] do
        let kind ← read (·.heap.kind source)
        located (setup.program.spanOf iterable) (fail (.typeMismatch "iterable" kind.name))

def whileFrom (test : ExpressionId) (body : Block) : Nat → Evaluation Unit
  | 0 => stop .outOfFuel
  | count + 1 => do
      if ← condition setup nested.toOperands test then
        if ← iteration nested none body then whileFrom test body count else pure ()
      else pure ()

def doWhileFrom (body : Block) (test : ExpressionId) : Nat → Evaluation Unit
  | 0 => stop .outOfFuel
  | count + 1 => do
      if ← iteration nested none body then
        if ← condition setup nested.toOperands test then doWhileFrom body test count else pure ()
      else pure ()

def foreverFrom (body : Block) : Nat → Evaluation Unit
  | 0 => stop .outOfFuel
  | count + 1 => do
      if ← iteration nested none body then foreverFrom body count else pure ()

/-! ## Signals -/

def breakLoop : Evaluation Unit :=
  fun state =>
    match state.loops.break? state.calls.loopBase with
    | some loops => .value () { state with loops := loops }
    | none => fail .breakOutsideLoop state

def continueLoop : Evaluation Unit :=
  fun state =>
    match state.loops.innermost? state.calls.loopBase with
    | some frame =>
        .value () { state with scopes := state.scopes.skipFrom frame.scopeDepth }
    | none => fail .continueOutsideLoop state

/-- Keep a value as the result of the current call. -/
def setResult (value : Address) : Evaluation Unit :=
  fun state =>
    match state.calls.current? with
    | some frame =>
        let (frame, state) := state.onHeap fun heap => frame.setResult heap value
        .value () { state with calls := state.calls.modifyCurrent fun _ => frame }
    | none => fail .returnOutsideFunction state

def giveBack (value : Option ExpressionId) : Evaluation Unit := do
  let address ← resultValue operands value
  setResult address

end Evaluation

end ScriptEngine
