import ScriptEngine.Failure.Basic
import ScriptEngine.Heap.Release
import ScriptEngine.Source.Interner

/-!
# Active calls

One frame for each user function that is running, innermost last. A frame
remembers how high the scopes and loops stood when the call began, and holds
the result of the call, pinned, until the caller takes it.
-/

namespace ScriptEngine

structure CallFrame where
  function : Name
  callSite : Span
  scopeBase : Nat
  loopBase : Nat
  result : Option Address := none
  /-- Raised by `return`. -/
  returned : Bool := false
deriving DecidableEq, Repr, Inhabited

namespace CallFrame

/-- Keep a result, pinned, and let go of an earlier one. -/
def setResult (frame : CallFrame) (heap : Heap) (value : Address) : CallFrame × Heap :=
  let heap := heap.setPinned value true
  let heap :=
    match frame.result with
    | some previous => (heap.setPinned previous false).release previous
    | none => heap
  ({ frame with result := some value, returned := true }, heap)

/-- Hand the result to the caller, no longer pinned. -/
def takeResult (frame : CallFrame) (heap : Heap) : Option Address × CallFrame × Heap :=
  match frame.result with
  | some value => (some value, { frame with result := none }, heap.setPinned value false)
  | none => (none, frame, heap)

/-- Destroy a frame together with a result that nobody took. -/
def discard (frame : CallFrame) (heap : Heap) : Heap :=
  match frame.result with
  | some value => (heap.setPinned value false).release value
  | none => heap

end CallFrame

structure Calls where
  frames : Array CallFrame := #[]
  /-- The greatest number of active calls; without one there is no bound. -/
  limit : Option Nat := none
deriving DecidableEq, Repr, Inhabited

namespace Calls

def depth (calls : Calls) : Nat :=
  calls.frames.size

def current? (calls : Calls) : Option CallFrame :=
  calls.frames.back?

/-- The limit, if it forbids another call. -/
def exceeded? (calls : Calls) : Option Nat :=
  calls.limit.filter (· ≤ calls.depth)

def push (calls : Calls) (frame : CallFrame) : Calls :=
  { calls with frames := calls.frames.push frame }

def pop (calls : Calls) : Calls :=
  { calls with frames := calls.frames.pop }

def modifyCurrent (calls : Calls) (change : CallFrame → CallFrame) : Calls :=
  { calls with frames := calls.frames.modify (calls.depth - 1) change }

/-- The first scope frame of the current call; the root outside of calls. -/
def scopeFloor (calls : Calls) : Nat :=
  match calls.current? with
  | some frame => frame.scopeBase
  | none => 0

/-- The number of loops that belong to callers of the current call. -/
def loopBase (calls : Calls) : Nat :=
  match calls.current? with
  | some frame => frame.loopBase
  | none => 0

def hasReturned (calls : Calls) : Bool :=
  match calls.current? with
  | some frame => frame.returned
  | none => false

/-- The active calls, innermost first. -/
def backtrace (calls : Calls) (names : Interner) : Backtrace :=
  ⟨calls.frames.toList.reverse.map fun frame =>
    ⟨names.lookup frame.function, frame.callSite⟩⟩

/-- A failure with the calls that are active now, unless it has its own. -/
def attach (calls : Calls) (names : Interner) (failure : Failure) : Failure :=
  if failure.backtrace.isSome then failure
  else failure.attach (calls.backtrace names)

end Calls

end ScriptEngine
