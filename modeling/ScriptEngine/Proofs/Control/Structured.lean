import ScriptEngine.Interpreter.Run

/-!
# Structured control flow

A semantics of statements without flags.  Executing a statement gives a
completion; a statement list stops at the first one that is not normal, a
loop consumes `break` and `continue`, and a call consumes `return`.  Loops
and calls that are active are only counted, nothing is ever marked in them.
-/

namespace ScriptEngine

inductive Completion where
  | normal
  | broken
  | continued
  /-- With the result of the call, which is pinned until the call takes it. -/
  | returned (value : Address)

namespace Completion

/-- Whether a loop may go on after an iteration. -/
def goesOn : Completion → Bool
  | .normal => true
  | .broken => false
  | .continued => true
  | .returned _ => false

/-- How a loop completes whose last iteration did so. -/
def afterLoop : Completion → Completion
  | .normal => .normal
  | .broken => .normal
  | .continued => .normal
  | .returned value => .returned value

end Completion

structure Structured extends Operands where
  execute : StatementId → Evaluation Completion
  iterations : Nat

namespace Structured

open Evaluation

variable (setup : Setup) (structured : Structured)

/-! ## Statement lists -/

def sequence : List StatementId → Evaluation Completion
  | [] => pure .normal
  | statement :: others => do
      match ← structured.execute statement with
      | .normal => sequence others
      | completion => pure completion

def block (body : Block) : Evaluation Completion :=
  inScope (sequence structured body.statements)

/-! ## Loops -/

def iteration (binding : Option (Name × Address)) (body : Block) : Evaluation Completion :=
  inScope do
    match binding with
    | some (name, value) => declare name value
    | none => pure ()
    sequence structured body.statements

def forEachFrom (name : Name) (body : Block) : Nat → Items → Evaluation Completion
  | 0, _ => stop .outOfFuel
  | count + 1, items => do
      match ← onHeap items.next? with
      | none => pure .normal
      | some (value, items) =>
          let completion ← iteration structured (some (name, value)) body
          if completion.goesOn then forEachFrom name body count items else pure completion

def whileFrom (test : ExpressionId) (body : Block) : Nat → Evaluation Completion
  | 0 => stop .outOfFuel
  | count + 1 => do
      if ← condition setup structured.toOperands test then
        let completion ← iteration structured none body
        if completion.goesOn then whileFrom test body count else pure completion
      else pure .normal

def doWhileFrom (body : Block) (test : ExpressionId) : Nat → Evaluation Completion
  | 0 => stop .outOfFuel
  | count + 1 => do
      let completion ← iteration structured none body
      if completion.goesOn then
        if ← condition setup structured.toOperands test then doWhileFrom body test count
        else pure .normal
      else pure completion

def foreverFrom (body : Block) : Nat → Evaluation Completion
  | 0 => stop .outOfFuel
  | count + 1 => do
      let completion ← iteration structured none body
      if completion.goesOn then foreverFrom body count else pure completion

/-- A loop, which consumes what is meant for it. -/
def loop (iterations : Evaluation Completion) : Evaluation Completion := do
  let completion ← inLoop iterations
  pure completion.afterLoop

def forEach (name : Name) (iterable : ExpressionId) (body : Block) :
    Evaluation Completion := do
  let source ← structured.evaluate iterable
  let items? ← read fun state => Items.of? state.heap source
  match items? with
  | some (.integers next stop) =>
      release [source]
      loop (forEachFrom structured name body structured.iterations (.integers next stop))
  | some items =>
      holding [source]
        (loop (forEachFrom structured name body structured.iterations items))
  | none =>
      holding [source] do
        let kind ← read (·.heap.kind source)
        located (setup.program.spanOf iterable) (fail (.typeMismatch "iterable" kind.name))

/-! ## Completions other than normal -/

/-- Complete in a way that is meant for a loop of the current call. -/
def leaveLoop (completion : Completion) (cause : Cause) : Evaluation Completion := do
  if (← read fun state => state.loops.innermost? state.calls.loopBase).isSome then
    pure completion
  else fail cause

def giveBack (value : Option ExpressionId) : Evaluation Completion := do
  let address ← resultValue structured.toOperands value
  onHeap fun heap => (.returned address, heap.setPinned address true)

/-! ## Calls -/

def runBody (function : Function) (arguments : List Address) : Evaluation Completion :=
  inScope do
    bindParameters (function.parameters.zip arguments)
    sequence structured function.body.statements

/-- Leave the current call with the result of its body. -/
def leaveCall (completion : Completion) : Evaluation (Option Address) := do
  update fun state => { state with calls := state.calls.pop }
  match completion with
  | .returned value => onHeap fun heap => (some value, heap.setPinned value false)
  | _ => pure none

def runCall (function : Function) (arguments : List Address) :
    Evaluation (Option Address) :=
  fun state =>
    match runBody structured function arguments state with
    | .value completion state => leaveCall completion state
    | .failure failure state => abandonCall setup failure state
    | .stopped reason => .stopped reason

/-! ## Statements -/

/-- Go on normally after something that is no statement. -/
def normally (action : Evaluation Unit) : Evaluation Completion := do
  action
  pure .normal

def statement (id : StatementId) (node : Statement) (span : Span) : Evaluation Completion :=
  match node with
  | .expression value =>
      located span do
        let address ← structured.evaluate value
        normally (release [address])
  | .declare name value =>
      located span (normally (declareVariable setup structured.toOperands id name value))
  | .block body => located span (block structured body)
  | .branch test body otherwise => do
      let holds ← condition setup structured.toOperands test
      located span
        (if holds then block structured body
          else
            match otherwise with
            | some statement => structured.execute statement
            | none => pure .normal)
  | .forEach name iterable body => located span (forEach setup structured name iterable body)
  | .whileLoop test body =>
      located span (loop (whileFrom setup structured test body structured.iterations))
  | .doWhile body test =>
      located span (loop (doWhileFrom setup structured body test structured.iterations))
  | .forever body => located span (loop (foreverFrom structured body structured.iterations))
  | .breakLoop => located span (leaveLoop .broken .breakOutsideLoop)
  | .continueLoop => located span (leaveLoop .continued .continueOutsideLoop)
  | .giveBack value => located span (giveBack structured value)

/-! ## Runs -/

def exhausted : Structured where
  evaluate _ := stop .outOfFuel
  share _ := stop .outOfFuel
  target _ := stop .outOfFuel
  execute _ := stop .outOfFuel
  iterations := 0

def layer (setup : Setup) (inner : Unit → Structured) (iterations : Nat) : Structured where
  evaluate id :=
    withExpression setup id fun node span =>
      expression setup (inner ()).toOperands (callUser setup (runCall setup (inner ()))) id node
        span
  share id :=
    withExpression setup id fun node span =>
      sharedExpression setup (inner ()).toOperands id node span
  target id :=
    withExpression setup id fun node span =>
      targetExpression setup (inner ()).toOperands node span
  execute id :=
    withStatement setup id fun node span => statement setup (inner ()) id node span
  iterations := iterations

/-- Statements nest, and loops iterate, as often as there is fuel. -/
def withFuel (setup : Setup) : Nat → Structured
  | 0 => exhausted
  | fuel + 1 => layer setup (fun () => withFuel setup fuel) fuel

end Structured

end ScriptEngine
