import ScriptEngine.Activation.Calls
import ScriptEngine.Activation.Loops
import ScriptEngine.Builtin.Basic
import ScriptEngine.Heap.Census
import ScriptEngine.Source.Program
import ScriptEngine.Storage.Place

/-!
# Interpreter state

What a run reads, its setup, and what it changes, its state. Literals are
built once for each expression and shared from then on.
-/

namespace ScriptEngine

structure Setup where
  program : Program
  builtins : BuiltinTable := .standard

structure State where
  heap : Heap := {}
  scopes : Scopes := {}
  calls : Calls := {}
  loops : Loops := {}
  /-- The shared object of each literal evaluated so far. -/
  literals : Array (Option Address) := #[]
  output : Output := {}
deriving Inhabited

namespace State

/-- Act on the heap alone. The heap is taken out of the state first, so that
it can be changed in place. -/
@[inline] def onHeap {α : Type} (state : State) (action : Heap → α × Heap) :
    α × State :=
  let heap := state.heap
  let state := { state with heap := .empty }
  let (result, heap) := action heap
  (result, { state with heap := heap })

/-- Act on the scopes and the heap. -/
@[inline] def onStorage {α : Type} (state : State)
    (action : Scopes → Heap → α × Scopes × Heap) : α × State :=
  let heap := state.heap
  let scopes := state.scopes
  let state := { state with heap := .empty, scopes := .initial }
  let (result, scopes, heap) := action scopes heap
  (result, { state with heap := heap, scopes := scopes })

def release (state : State) (address : Address) : State :=
  (state.onHeap fun heap => ((), heap.release address)).2

def releaseAll (state : State) (addresses : List Address) : State :=
  (state.onHeap fun heap => ((), heap.releaseAll addresses)).2

def literal? (state : State) (id : ExpressionId) : Option Address :=
  state.literals[id.index]?.join

/-- The number of literals built so far. -/
def literalCount (state : State) : Nat :=
  state.literals.countP (·.isSome)

/-- An array with one entry set, lengthened with empty entries as needed. -/
def record (entries : Array (Option Address)) (position : Nat) (address : Address) :
    Array (Option Address) :=
  if position < entries.size then entries.setIfInBounds position (some address)
  else
    (entries ++ Array.replicate (position - entries.size) none).push (some address)

/-- The living objects that are not literals. -/
def liveCount (state : State) : Nat :=
  state.heap.liveCount - state.literalCount

/-- The object bound to a name visible to the current call. -/
def lookup? (state : State) (name : Name) : Option Address :=
  state.scopes.lookup? name state.calls.scopeFloor

/-- Whether the innermost loop of the current call must stop. -/
def loopFinished (state : State) : Bool :=
  (match state.loops.innermost? state.calls.loopBase with
    | some frame => frame.broken
    | none => false) ||
  state.calls.hasReturned

/-- Whether the statement list being run must stop here. -/
def hasSignal (state : State) : Bool :=
  state.scopes.innermost.skipsRest || state.loopFinished

end State

end ScriptEngine
