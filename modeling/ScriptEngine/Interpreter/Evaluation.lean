import ScriptEngine.Interpreter.State

/-!
# Evaluations

An evaluation runs on a state and gives a value or a failure, either with
the state it leaves, or stops without an answer: because its fuel ran out,
because the program refers to a node that it does not have, or because an
observer of the run interrupted it.
-/

namespace ScriptEngine

inductive Stop where
  | outOfFuel
  | missingNode
  | interrupted
deriving DecidableEq, Repr

inductive Outcome (α : Type) where
  | value (result : α) (state : State)
  | failure (failure : Failure) (state : State)
  | stopped (reason : Stop)

def Evaluation (α : Type) : Type :=
  State → Outcome α

namespace Evaluation

variable {α β : Type}

@[inline] protected def pure (result : α) : Evaluation α :=
  fun state => .value result state

@[inline] protected def bind (first : Evaluation α) (next : α → Evaluation β) :
    Evaluation β :=
  fun state =>
    match first state with
    | .value result state => next result state
    | .failure failure state => .failure failure state
    | .stopped reason => .stopped reason

instance : Monad Evaluation where
  pure := Evaluation.pure
  bind := Evaluation.bind

theorem bind_pure (action : Evaluation α) :
    Evaluation.bind action Evaluation.pure = action := by
  funext state
  unfold Evaluation.bind Evaluation.pure
  cases action state <;> rfl

theorem bind_assoc {γ : Type} (action : Evaluation α) (first : α → Evaluation β)
    (second : β → Evaluation γ) :
    Evaluation.bind (Evaluation.bind action first) second =
      Evaluation.bind action fun result => Evaluation.bind (first result) second := by
  funext state
  unfold Evaluation.bind
  cases action state <;> rfl

instance : LawfulMonad Evaluation :=
  LawfulMonad.mk' Evaluation bind_pure (fun _ _ => rfl) bind_assoc

def stop (reason : Stop) : Evaluation α :=
  fun _ => .stopped reason

def fail (cause : Cause) : Evaluation α :=
  fun state => .failure (.of cause) state

/-- Give the result of a computation that can fail. -/
@[inline] def ofExcept (result : Except Cause α) : Evaluation α :=
  match result with
  | .ok value => Evaluation.pure value
  | .error cause => fail cause

/-- Something read off the state. -/
@[inline] def read (view : State → α) : Evaluation α :=
  fun state => .value (view state) state

@[inline] def update (change : State → State) : Evaluation Unit :=
  fun state => .value () (change state)

@[inline] def onHeap (action : Heap → α × Heap) : Evaluation α :=
  fun state =>
    let (result, state) := state.onHeap action
    .value result state

/-- Give handles back. -/
def release (addresses : List Address) : Evaluation Unit :=
  update (·.releaseAll addresses)

/-- Blame failures of an evaluation on a span. -/
@[inline] def located (span : Span) (body : Evaluation α) : Evaluation α :=
  fun state =>
    match body state with
    | .value result state => .value result state
    | .failure failure state => .failure (failure.locate span) state
    | .stopped reason => .stopped reason

/-- Apply a change to the state however an evaluation ends. -/
@[inline] def ensuring (body : Evaluation α) (change : State → State) : Evaluation α :=
  fun state =>
    match body state with
    | .value result state => .value result (change state)
    | .failure failure state => .failure failure (change state)
    | .stopped reason => .stopped reason

/-- Give handles back once an evaluation has ended. -/
@[inline] def holding (addresses : List Address) (body : Evaluation α) : Evaluation α :=
  ensuring body (·.releaseAll addresses)

/-- Give handles back if an evaluation fails. -/
@[inline] def guarding (addresses : List Address) (body : Evaluation α) :
    Evaluation α :=
  fun state =>
    match body state with
    | .value result state => .value result state
    | .failure failure state => .failure failure (state.releaseAll addresses)
    | .stopped reason => .stopped reason

/-- Run in a scope frame of its own. -/
@[inline] def inScope (body : Evaluation α) : Evaluation α :=
  fun state =>
    ensuring body
      (fun state =>
        (state.onStorage fun scopes heap => ((), scopes.pop heap)).2)
      { state with scopes := state.scopes.push }

/-- Run as a loop whose iterations lie above the current scope frames. -/
@[inline] def inLoop (body : Evaluation α) : Evaluation α :=
  fun state =>
    ensuring body (fun state => { state with loops := state.loops.pop })
      { state with loops := state.loops.push { scopeDepth := state.scopes.depth } }

/-- Bind a name in the innermost frame to an object whose handle is given. -/
def declare (name : Name) (value : Address) : Evaluation Unit :=
  fun state =>
    let ((), state) := state.onStorage fun scopes heap =>
      ((), scopes.declare heap name value)
    .value () state

def newScalar (value : Scalar) : Evaluation Address :=
  onHeap (·.newScalar value)

def copy (address : Address) : Evaluation Address :=
  onHeap (·.copy address)

def retain (address : Address) : Evaluation Address :=
  onHeap fun heap => (address, heap.retain address)

end Evaluation

/-- The evaluations of the expressions inside a node. -/
structure Operands where
  evaluate : ExpressionId → Evaluation Address
  /-- A handle on stored data itself, where the expression names some. -/
  share : ExpressionId → Evaluation Address
  /-- The place an expression names as the target of an assignment. -/
  target : ExpressionId → Evaluation Place

/-- The evaluations of the nodes inside a node, and how often a loop may
iterate. -/
structure Nested extends Operands where
  execute : StatementId → Evaluation Unit
  iterations : Nat

end ScriptEngine
