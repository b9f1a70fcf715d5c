import ScriptEngine.Interpreter.Evaluation

/-!
# Literals

The object of a literal is allocated the first time the literal is
evaluated. The interpreter keeps a handle on it and hands out others.
-/

namespace ScriptEngine

/-- The value a literal stands for. -/
def Literal.scalar (names : Interner) : Literal → Scalar
  | .none => .none
  | .int value => .int value
  | .usize value => .usize value
  | .float bits => .float ⟨bits⟩
  | .bool value => .bool value
  | .char value => .char value
  | .string contents => .string (names.lookup contents)

/-- Keep a new object as the literal of an expression, with a second handle
for the caller. -/
def State.keepLiteral (state : State) (id : ExpressionId) (value : Scalar) :
    Address × State :=
  let (address, state) := state.onHeap fun heap =>
    let (address, heap) := heap.newScalar value
    (address, heap.retain address)
  let literals := state.literals
  let state := { state with literals := #[] }
  (address, { state with literals := State.record literals id.index address })

namespace Evaluation

def literal (names : Interner) (id : ExpressionId) (literal : Literal) :
    Evaluation Address :=
  fun state =>
    match state.literal? id with
    | some address => retain address state
    | none =>
        let (address, state) := state.keepLiteral id (literal.scalar names)
        .value address state

end Evaluation

end ScriptEngine
