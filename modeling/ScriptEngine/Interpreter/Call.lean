import ScriptEngine.Interpreter.Statement

/-!
# Calls

The arguments of a call are evaluated in the caller. A user function runs in
a scope frame above a new call frame; failures that leave it carry the calls
that were active. A built-in function runs without a frame.
-/

namespace ScriptEngine.Evaluation

variable (setup : Setup) (operands : Operands) (nested : Nested)

/-- Bind parameters to arguments, taking over their handles. -/
def bindParameters : List (Parameter × Address) → Evaluation Unit
  | [] => pure ()
  | (parameter, value) :: others => do
      declare parameter.name value
      bindParameters others

def runBody (function : Function) (arguments : List Address) : Evaluation Unit :=
  inScope do
    bindParameters (function.parameters.zip arguments)
    sequence nested function.body.statements

/-- Remove the current call frame, taking its result. -/
def popCall : Evaluation (Option Address) :=
  fun state =>
    match state.calls.current? with
    | none => .value none state
    | some frame =>
        let state := { state with calls := state.calls.pop }
        let (result, state) := state.onHeap fun heap =>
          let (result, _, heap) := frame.takeResult heap
          (result, heap)
        .value result state

/-- Remove the current call frame after a failure, which takes along the
calls that are active. -/
def abandonCall {α : Type} (failure : Failure) : Evaluation α :=
  fun state =>
    let failure := state.calls.attach setup.program.names failure
    match state.calls.current? with
    | none => .failure failure state
    | some frame =>
        let state := { state with calls := state.calls.pop }
        let ((), state) := state.onHeap fun heap => ((), frame.discard heap)
        .failure failure state

/-- Run a body in the call frame that was pushed for it, and give the
result. -/
def runCall (function : Function) (arguments : List Address) :
    Evaluation (Option Address) :=
  fun state =>
    match runBody nested function arguments state with
    | .value () state => popCall state
    | .failure failure state => abandonCall setup failure state
    | .stopped reason => .stopped reason

/-- Push the frame of a call, or fail if there may be no more calls. -/
def enterCall (function : Function) (callSite : Span) : Evaluation Unit :=
  fun state =>
    match state.calls.exceeded? with
    | some limit =>
        let failure := (Failure.of (.stackOverflow limit)).locate callSite
        .failure (state.calls.attach setup.program.names failure) state
    | none =>
        let frame := {
          function := function.name
          callSite := callSite
          scopeBase := state.scopes.depth
          loopBase := state.loops.depth }
        .value () { state with calls := state.calls.push frame }

/-- Call a function with arguments whose handles it takes over, given how
its body is run in a call frame. -/
def callUser (run : Function → List Address → Evaluation (Option Address))
    (id : FunctionId) (arguments : List Address) (callSite : Span) :
    Evaluation Address := do
  match setup.program.function? id with
  | none => stop .missingNode
  | some function =>
      let name := setup.program.names.lookup function.name
      let arity := function.parameters.length
      if arguments.length ≠ arity then
        release arguments
        located callSite (fail (.arityMismatch name arity arguments.length))
      else
        guarding arguments (enterCall setup function callSite)
        match ← run function arguments with
        | some result => pure result
        | none =>
            if function.result.kind = .none then newScalar .none
            else located callSite (fail (.missingResult name))

/-- Call a built-in function, whose caller keeps the handles of the arguments. -/
def invokeBuiltin (builtin : Builtin) (arguments : List Address) : Evaluation Address :=
  fun state =>
    let heap := state.heap
    let output := state.output
    let state := { state with heap := .empty, output := {} }
    let result := builtin.invoke arguments heap output
    let state := { state with heap := result.heap, output := result.output }
    match result.value with
    | .ok address => .value address state
    | .error failure => .failure failure state

def callBuiltin (name : Name) (arguments : List Address) : Evaluation Address :=
  let text := setup.program.names.lookup name
  holding arguments
    (match setup.builtins.get? text with
      | some builtin => invokeBuiltin builtin arguments
      | none => fail (.unknownBuiltin text))

/-- Evaluate the arguments of a call and carry it out, given what a call of a
user function does. -/
def call (invoke : FunctionId → List Address → Span → Evaluation Address)
    (callee : Callee) (arguments : List ExpressionId) (callSite : Span) :
    Evaluation Address := do
  let addresses ← evaluateAll operands arguments
  match callee with
  | .builtin name => callBuiltin setup name addresses
  | .user function => invoke function addresses callSite

end ScriptEngine.Evaluation
