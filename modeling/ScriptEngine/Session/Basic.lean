import ScriptEngine.Interpreter.Basic
import ScriptEngine.Session.Description

/-!
# Sessions

A session drives one interpreter step by step and can hold values under
names between steps. A failed step leaves the interpreter usable.
-/

namespace ScriptEngine

structure Session where
  interpreter : Interpreter
  held : Holdings := []

namespace Session

inductive Request where
  | run (statements : List StatementId)
  | execute (statement : StatementId)
  | evaluate (expression : ExpressionId) (keep : Option String)
  | call (function : FunctionId) (arguments : List Description) (keep : Option String)
  | lookup (variableName : String) (keep : Option String)
  | create (name : String) (description : Description)
  | show (name : String)
  | outline (name : String)
  | compare (left right : String)
  | drop (name : String)
  | sweep
  | clearOutput
  | nameCount
  | builtinCount

inductive Reply where
  | done
  | value (snapshot : Snapshot)
  | text (contents : String)
  /-- Identity and structural equality of two objects. -/
  | comparison (identical equal : Bool)
  | count (number : Nat)
  | failed (failure : Failure)
  /-- The request names a value that is not held. -/
  | unknownName

/-- An answer with the text that was printed on the way to it. -/
structure Report where
  reply : Reply
  printed : String

/-- What can be counted after a step. -/
structure Summary where
  liveCount : Nat
  census : Census
  callDepth : Nat
  scopeDepth : Nat
deriving DecidableEq, Repr

variable (session : Session)

def state : State :=
  session.interpreter.state

def summary : Summary where
  liveCount := session.state.liveCount
  census := session.state.heap.census
  callDepth := session.state.calls.depth
  scopeDepth := session.state.scopes.depth

def withState (state : State) : Session :=
  { session with interpreter := { session.interpreter with state := state } }

/-- Act on the heap alone, in place. -/
def onHeap {α : Type} (session : Session) (action : Heap → α × Heap) : α × Session :=
  let state := session.interpreter.state
  let setup := session.interpreter.setup
  let held := session.held
  let (result, state) := state.onHeap action
  (result, ⟨⟨setup, state⟩, held⟩)

def release (session : Session) (addresses : List Address) : Session :=
  (session.onHeap fun heap => ((), heap.releaseAll addresses)).2

/-- Give up the handle held under a name. -/
def forget (session : Session) (name : String) : Session :=
  let previous := session.held.get? name
  { session with held := session.held.erase name }.release previous.toList

/-- Answer with an object whose handle is given, and keep the handle under a
name or give it back. -/
def deliver (session : Session) (keep : Option String) (address : Address) :
    Reply × Session :=
  let snapshot := session.state.heap.snapshot address
  match keep with
  | none => (.value snapshot, session.release [address])
  | some name =>
      let session := session.forget name
      (.value snapshot, { session with held := (name, address) :: session.held })

/-- The session after an outcome, with the answer for a result. -/
def conclude {α : Type} (session : Session) (outcome : Outcome α)
    (answer : Session → α → Reply × Session) : Except Stop (Reply × Session) :=
  match outcome with
  | .value result state => .ok (answer (session.withState state) result)
  | .failure failure state => .ok (.failed failure, session.withState state)
  | .stopped reason => .error reason

/-- Take the state out of a session that is about to run, so that the run
can change it in place. -/
def idle (session : Session) : Session :=
  session.withState {}

def perform (fuel : Nat) (session : Session) : Request → Except Stop (Reply × Session)
  | .run statements =>
      let interpreter := session.interpreter
      session.idle.conclude (interpreter.run fuel statements)
        fun session () => (.done, session)
  | .execute statement =>
      let interpreter := session.interpreter
      session.idle.conclude (interpreter.execute fuel statement)
        fun session () => (.done, session)
  | .evaluate expression keep =>
      let interpreter := session.interpreter
      session.idle.conclude (interpreter.evaluate fuel expression)
        fun session address => session.deliver keep address
  | .call function arguments keep =>
      if arguments.all (·.isKnown session.held) then
        let held := session.held
        let (addresses, session) := session.onHeap fun heap =>
          Description.allocateAll held heap arguments
        let interpreter := session.interpreter
        session.idle.conclude (interpreter.call fuel function addresses)
          fun session address => session.deliver keep address
      else .ok (.unknownName, session)
  | .lookup variableName keep =>
      match session.interpreter.lookup? variableName with
      | none => .ok (.done, session)
      | some address =>
          let ((), session) := session.onHeap fun heap => ((), heap.retain address)
          .ok (session.deliver keep address)
  | .create name description =>
      if description.isKnown session.held then
        let held := session.held
        let (address, session) := session.onHeap fun heap =>
          description.allocate held heap
        .ok (session.deliver (some name) address)
      else .ok (.unknownName, session)
  | .show name =>
      match session.held.get? name with
      | some address => .ok (.value (session.state.heap.snapshot address), session)
      | none => .ok (.unknownName, session)
  | .outline name =>
      match session.held.get? name with
      | some address => .ok (.text (session.state.heap.outline address), session)
      | none => .ok (.unknownName, session)
  | .compare left right =>
      match session.held.get? left, session.held.get? right with
      | some leftAddress, some rightAddress =>
          .ok (.comparison (leftAddress == rightAddress)
            (session.state.heap.equals leftAddress rightAddress), session)
      | _, _ => .ok (.unknownName, session)
  | .drop name =>
      if (session.held.get? name).isSome then .ok (.done, session.forget name)
      else .ok (.unknownName, session)
  | .sweep =>
      let (count, session) := session.onHeap Heap.sweep
      .ok (.count count, session)
  | .clearOutput =>
      let state := session.state
      .ok (.done, session.withState { state with output := state.output.clear })
  | .nameCount => .ok (.count session.interpreter.setup.program.names.size, session)
  | .builtinCount => .ok (.count session.interpreter.setup.builtins.size, session)

/-- Carry out a request and report what it answered and printed. -/
def step (fuel : Nat) (session : Session) (request : Request) :
    Except Stop (Report × Session) :=
  let before := session.state.output.text.length
  match session.perform fuel request with
  | .error reason => .error reason
  | .ok (reply, session) =>
      .ok (⟨reply, (session.state.output.text.drop before).toString⟩, session)

end Session

end ScriptEngine
