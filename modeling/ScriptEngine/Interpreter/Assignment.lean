import ScriptEngine.Interpreter.Expression

/-!
# Assignments

The target of an assignment is walked in place, and a dict key that is not
there yet is created. The value is evaluated after the target, and the
result is a copy of what was stored.
-/

namespace ScriptEngine.Evaluation

variable (setup : Setup) (operands : Operands)

/-- A handle on the object in a place. -/
def loadPlace (place : Place) : Evaluation Address := do
  let result ← read fun state => place.load state.scopes state.heap
  let address ← ofExcept result
  retain address

/-- The place of `container[key]`, created where it is missing. -/
def locateForWriting (container key : Address) : Evaluation Place := do
  let result ← onHeap (·.locate container key .write)
  ofExcept result

/-- Follow keys from a place to the place they lead to. -/
def placeChain (place : Place) : List ExpressionId → Evaluation Place
  | [] => pure place
  | index :: others => do
      let next ← holding place.handles do
        let container ← loadPlace place
        holding [container] do
          let key ← operands.evaluate index
          located (setup.program.spanOf index) (locateForWriting container key)
      placeChain next others

def bindingPlace (name : Name) : Evaluation Place := do
  let found ← read fun state => state.scopes.resolve? name state.calls.scopeFloor
  match found with
  | some depth => pure (.binding depth name)
  | none => fail (.undefinedVariable (setup.program.names.lookup name))

def indexedPlace (base : ExpressionId) (indices : List ExpressionId) :
    Evaluation Place := do
  let place ← operands.target base
  placeChain setup operands place indices

/-- Store an object, giving back the one it replaces. -/
def storeIn (place : Place) (value : Address) : Evaluation Unit := do
  let result ← fun state =>
    let (result, state) := state.onStorage fun scopes heap =>
      place.store scopes heap value
    Outcome.value result state
  match result with
  | .ok previous => release [previous]
  | .error cause =>
      release [value]
      fail cause

def assign (target value : ExpressionId) : Evaluation Address := do
  let place ← operands.target target
  holding place.handles do
    let stored ← operands.evaluate value
    let result ← copy stored
    guarding [result] (storeIn place stored)
    pure result

end ScriptEngine.Evaluation
