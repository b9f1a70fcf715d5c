import ScriptEngine.Proofs.Control.Lockstep
import ScriptEngine.Session.Basic

/-!
# What requests ask for

A request has code run, and then what the code results in is delivered, or it is no more
than an errand on the heap or an answer.  Which of them it is depends on what the session
holds and binds, and nothing else does.
-/

namespace ScriptEngine

open Evaluation

namespace Session

/-- What can be run. -/
inductive Code where
  | statements (ids : List StatementId)
  | statement (id : StatementId)
  | expression (id : ExpressionId)
  | call (function : FunctionId) (arguments : List Description)

inductive Errand where
  /-- Run code, and deliver what it results in. -/
  | run (code : Code) (keep : Option String)
  /-- Deliver another handle on an object. -/
  | lend (address : Address) (keep : Option String)
  | build (description : Description) (name : String)
  | drop (name : String)
  | sweep
  | clear
  | answer (reply : Reply)

/-- What a request asks a session for. -/
def errand (session : Session) : Request → Errand
  | .run statements => .run (.statements statements) none
  | .execute statement => .run (.statement statement) none
  | .evaluate expression keep => .run (.expression expression) keep
  | .call function arguments keep =>
      if arguments.all (·.isKnown session.held) then .run (.call function arguments) keep
      else .answer .unknownName
  | .lookup variableName keep =>
      match session.interpreter.lookup? variableName with
      | none => .answer .done
      | some address => .lend address keep
  | .create name description =>
      if description.isKnown session.held then .build description name
      else .answer .unknownName
  | .show name =>
      match session.held.get? name with
      | some address => .answer (.value (session.state.heap.snapshot address))
      | none => .answer .unknownName
  | .outline name =>
      match session.held.get? name with
      | some address => .answer (.text (session.state.heap.outline address))
      | none => .answer .unknownName
  | .compare left right =>
      match session.held.get? left, session.held.get? right with
      | some leftAddress, some rightAddress =>
          .answer (.comparison (leftAddress == rightAddress)
            (session.state.heap.equals leftAddress rightAddress))
      | _, _ => .answer .unknownName
  | .drop name => if (session.held.get? name).isSome then .drop name else .answer .unknownName
  | .sweep => .sweep
  | .clearOutput => .clear
  | .nameCount => .answer (.count session.interpreter.setup.program.names.size)
  | .builtinCount => .answer (.count session.interpreter.setup.builtins.size)

/-! ## Code -/

/-- Where code starts, once the arguments are there that a call is made with. -/
def opening (session : Session) : Code → State
  | .call _ arguments =>
      { session.state with
        heap := (Description.allocateAll session.held session.state.heap arguments).2 }
  | _ => session.state

/-- What code does, given how nodes are evaluated and how the body of a call is run.
Statements result in nothing. -/
def evaluation (session : Session) (nested : Nested)
    (run : Function → List Address → Evaluation (Option Address)) :
    Code → Evaluation (Option Address)
  | .statements ids => sequence nested ids >>= fun _ => pure none
  | .statement id => nested.execute id >>= fun _ => pure none
  | .expression id => nested.evaluate id >>= fun address => pure (some address)
  | .call function arguments =>
      callUser session.interpreter.setup run function
        (Description.allocateAll session.held session.state.heap arguments).1 .empty >>=
          fun address => pure (some address)

/-- How code ends. -/
def ran (session : Session) (nested : Nested)
    (run : Function → List Address → Evaluation (Option Address)) (code : Code) :
    Outcome (Option Address) :=
  session.evaluation nested run code (session.opening code)

/-- Answer with what code has resulted in. -/
def handOver (keep : Option String) (session : Session) : Option Address → Reply × Session
  | none => (.done, session)
  | some address => session.deliver keep address

def carryOut (session : Session) (nested : Nested) : Errand → Except Stop (Reply × Session)
  | .run code keep =>
      session.conclude (session.ran nested (runCall session.interpreter.setup nested) code)
        (handOver keep)
  | .lend address keep =>
      .ok ((session.onHeap fun heap => ((), heap.retain address)).2.deliver keep address)
  | .build description name =>
      let (address, session) := session.onHeap fun heap =>
        description.allocate session.held heap
      .ok (session.deliver (some name) address)
  | .drop name => .ok (.done, session.forget name)
  | .sweep =>
      let (count, session) := session.onHeap Heap.sweep
      .ok (.count count, session)
  | .clear =>
      .ok (.done, session.withState
        { session.state with output := session.state.output.clear })
  | .answer reply => .ok (reply, session)

/-! ## Carrying out what is asked for -/

theorem withState_conclude {α : Type} (session : Session) (state : State) (outcome : Outcome α)
    (answer : Session → α → Reply × Session) :
    (session.withState state).conclude outcome answer = session.conclude outcome answer := by
  cases outcome <;> rfl

theorem conclude_void (session : Session) (body : Evaluation Unit) (start : State)
    (keep : Option String) :
    session.conclude ((body >>= fun _ => pure none) start) (handOver keep) =
      session.conclude (body start) fun session () => (.done, session) := by
  rw [bind_run]
  cases body start with
  | value result last => rfl
  | failure failure last => rfl
  | stopped reason => rfl

theorem conclude_some (session : Session) (body : Evaluation Address) (start : State)
    (keep : Option String) :
    session.conclude ((body >>= fun address => pure (some address)) start) (handOver keep) =
      session.conclude (body start) fun session address => session.deliver keep address := by
  rw [bind_run]
  cases body start with
  | value result last => rfl
  | failure failure last => rfl
  | stopped reason => rfl

/-- Carry out a request with an evaluator that may be another than the one with fuel. -/
def performWith (evaluator : Setup → Nat → Nested) (fuel : Nat) (session : Session) :
    Request → Except Stop (Reply × Session)
  | .run statements =>
      session.conclude
        (sequence (evaluator session.interpreter.setup fuel) statements session.state)
        fun session () => (.done, session)
  | .execute statement =>
      session.conclude
        ((evaluator session.interpreter.setup fuel).execute statement session.state)
        fun session () => (.done, session)
  | .evaluate expression keep =>
      session.conclude
        ((evaluator session.interpreter.setup fuel).evaluate expression session.state)
        fun session address => session.deliver keep address
  | .call function arguments keep =>
      if arguments.all (·.isKnown session.held) then
        let (addresses, heap) :=
          Description.allocateAll session.held session.state.heap arguments
        let setup := session.interpreter.setup
        session.conclude
          (callUser setup (runCall setup (evaluator setup fuel)) function addresses .empty
            { session.state with heap := heap })
          fun session address => session.deliver keep address
      else .ok (.unknownName, session)
  | request => session.perform fuel request

section

variable (session : Session) (fuel : Nat) (request : Request)

theorem performWith_withFuel :
    session.performWith Nested.withFuel fuel request = session.perform fuel request := by
  cases request <;> simp only [performWith, perform, idle, withState_conclude] <;> rfl

/-- To perform a request is to carry out what it asks for. -/
theorem performWith_eq (evaluator : Setup → Nat → Nested) :
    session.performWith evaluator fuel request =
      session.carryOut (evaluator session.interpreter.setup fuel) (session.errand request) := by
  cases request with
  | run statements => exact (conclude_void session _ _ none).symm
  | execute statement => exact (conclude_void session _ _ none).symm
  | evaluate expression keep => exact (conclude_some session _ _ keep).symm
  | call function arguments keep =>
      simp only [performWith, errand]
      split
      · exact (conclude_some session _ _ keep).symm
      · rfl
  | lookup variableName keep =>
      simp only [performWith, perform, errand]
      cases session.interpreter.lookup? variableName with
      | none => rfl
      | some address => rfl
  | create name description =>
      simp only [performWith, perform, errand]
      split <;> rfl
  | «show» name =>
      simp only [performWith, perform, errand]
      cases session.held.get? name with
      | none => rfl
      | some address => rfl
  | outline name =>
      simp only [performWith, perform, errand]
      cases session.held.get? name with
      | none => rfl
      | some address => rfl
  | compare left right =>
      simp only [performWith, perform, errand]
      cases session.held.get? left with
      | none => rfl
      | some first =>
          cases session.held.get? right with
          | none => rfl
          | some second => rfl
  | drop name =>
      simp only [performWith, perform, errand]
      split <;> rfl
  | sweep => rfl
  | clearOutput => rfl
  | nameCount => rfl
  | builtinCount => rfl

theorem perform_eq :
    session.perform fuel request =
      session.carryOut (.withFuel session.interpreter.setup fuel) (session.errand request) := by
  rw [← performWith_withFuel, performWith_eq]

end

variable {session : Session} {request : Request}

/-- What errands can be that requests ask for. -/
def Errand.Fits (session : Session) : Errand → Prop
  | .lend address _ => ∃ position name, session.state.scopes.get? position name = some address
  | .answer reply => ∀ failure, reply ≠ .failed failure
  | _ => True

theorem errand_fits (session : Session) (request : Request) :
    (session.errand request).Fits session := by
  cases request with
  | run statements => trivial
  | execute statement => trivial
  | evaluate expression keep => trivial
  | call function arguments keep =>
      simp only [errand]
      split
      · trivial
      · simp [Errand.Fits]
  | lookup variableName keep =>
      simp only [errand]
      split
      · simp [Errand.Fits]
      · rename_i address found
        unfold Interpreter.lookup? State.lookup? at found
        obtain ⟨name, _, visible⟩ := Option.bind_eq_some_iff.mp found
        obtain ⟨position, _, bound⟩ := Scopes.get?_of_lookup? visible
        exact ⟨position, name, bound⟩
  | create name description =>
      simp only [errand]
      split
      · trivial
      · simp [Errand.Fits]
  | «show» name =>
      simp only [errand]
      split <;> simp [Errand.Fits]
  | outline name =>
      simp only [errand]
      split <;> simp [Errand.Fits]
  | compare left right =>
      simp only [errand]
      split <;> simp [Errand.Fits]
  | drop name =>
      simp only [errand]
      split
      · trivial
      · simp [Errand.Fits]
  | sweep => trivial
  | clearOutput => trivial
  | nameCount => simp [errand, Errand.Fits]
  | builtinCount => simp [errand, Errand.Fits]

/-! ## How code ends -/

/-- How the run that a request starts ends with some evaluator; nothing where
no code runs. -/
def outcome? (session : Session) (nested : Nested) : Request → Option (Outcome Unit)
  | .run statements => some (sequence nested statements session.state)
  | .execute statement => some (nested.execute statement session.state)
  | .evaluate expression _ =>
      some ((nested.evaluate expression >>= fun _ => pure ()) session.state)
  | .call function arguments _ =>
      if arguments.all (·.isKnown session.held) then
        let (addresses, session) := session.onHeap fun heap =>
          Description.allocateAll session.held heap arguments
        some ((callUser session.interpreter.setup (runCall session.interpreter.setup nested)
          function addresses .empty >>= fun _ => pure ()) session.state)
      else none
  | _ => none

/-- How the run that a request starts ends with some evaluator, given how the
body of the call is run where the request is one. -/
def outcomeWith? (session : Session) (nested : Nested)
    (run : Function → List Address → Evaluation (Option Address)) :
    Request → Option (Outcome Unit)
  | .call function arguments _ =>
      if arguments.all (·.isKnown session.held) then
        let (addresses, session) := session.onHeap fun heap =>
          Description.allocateAll session.held heap arguments
        some ((callUser session.interpreter.setup run function addresses .empty >>=
          fun _ => pure ()) session.state)
      else none
  | request => session.outcome? nested request

theorem outcomeWith?_runCall (session : Session) (nested : Nested) (request : Request) :
    session.outcomeWith? nested (runCall session.interpreter.setup nested) request =
      session.outcome? nested request := by
  cases request <;> rfl

/-- The requests that run code, and what is run. -/
theorem outcomeWith?_cases {nested : Nested}
    {run : Function → List Address → Evaluation (Option Address)} {request : Request}
    {outcome : Outcome Unit} (ran : session.outcomeWith? nested run request = some outcome) :
    (∃ statements, request = .run statements ∧
      sequence nested statements session.state = outcome) ∨
    (∃ statement, request = .execute statement ∧
      nested.execute statement session.state = outcome) ∨
    (∃ expression keep, request = .evaluate expression keep ∧
      (nested.evaluate expression >>= fun _ => pure ()) session.state = outcome) ∨
    ∃ function arguments keep, request = .call function arguments keep ∧
      arguments.all (·.isKnown session.held) = true ∧
      (callUser session.interpreter.setup run function
        (Description.allocateAll session.held session.state.heap arguments).1 .empty >>=
          fun _ => pure ())
        { session.state with
          heap := (Description.allocateAll session.held session.state.heap arguments).2 } =
        outcome := by
  cases request with
  | run statements => exact Or.inl ⟨statements, rfl, Option.some.inj ran⟩
  | execute statement => exact Or.inr (Or.inl ⟨statement, rfl, Option.some.inj ran⟩)
  | evaluate expression keep =>
      exact Or.inr (Or.inr (Or.inl ⟨expression, keep, rfl, Option.some.inj ran⟩))
  | call function arguments keep =>
      rw [outcomeWith?] at ran
      split at ran
      · rename_i known
        exact Or.inr (Or.inr (Or.inr ⟨function, arguments, keep, rfl, known, Option.some.inj ran⟩))
      · simp at ran
  | lookup variableName keep => simp [outcomeWith?, outcome?] at ran
  | create name description => simp [outcomeWith?, outcome?] at ran
  | «show» name => simp [outcomeWith?, outcome?] at ran
  | outline name => simp [outcomeWith?, outcome?] at ran
  | compare left right => simp [outcomeWith?, outcome?] at ran
  | drop name => simp [outcomeWith?, outcome?] at ran
  | sweep => simp [outcomeWith?, outcome?] at ran
  | clearOutput => simp [outcomeWith?, outcome?] at ran
  | nameCount => simp [outcomeWith?, outcome?] at ran
  | builtinCount => simp [outcomeWith?, outcome?] at ran

/-- The code that is to be run, if there is any. -/
def Errand.code? : Errand → Option Code
  | .run code _ => some code
  | _ => none

/-- It is the code that a request asks for that runs. -/
theorem outcomeWith?_eq (session : Session) (nested : Nested)
    (run : Function → List Address → Evaluation (Option Address)) (request : Request) :
    session.outcomeWith? nested run request =
      (session.errand request).code?.map fun code =>
        (session.evaluation nested run code >>= fun _ => pure ()) (session.opening code) := by
  cases request with
  | run statements =>
      simp only [errand, Errand.code?, Option.map_some, evaluation, LawfulMonad.bind_assoc,
        pure_bind, bind_pure_unit]
      rfl
  | execute statement =>
      simp only [errand, Errand.code?, Option.map_some, evaluation, LawfulMonad.bind_assoc,
        pure_bind, bind_pure_unit]
      rfl
  | evaluate expression keep =>
      simp only [errand, Errand.code?, Option.map_some, evaluation, LawfulMonad.bind_assoc,
        pure_bind]
      rfl
  | call function arguments keep =>
      simp only [outcomeWith?, errand]
      split
      · simp only [Errand.code?, Option.map_some, evaluation, LawfulMonad.bind_assoc, pure_bind]
        rfl
      · rfl
  | lookup variableName keep =>
      simp only [errand]
      split <;> rfl
  | create name description =>
      simp only [errand]
      split <;> rfl
  | «show» name =>
      simp only [errand]
      split <;> rfl
  | outline name =>
      simp only [errand]
      split <;> rfl
  | compare left right =>
      simp only [errand]
      split <;> rfl
  | drop name =>
      simp only [errand]
      split <;> rfl
  | sweep => rfl
  | clearOutput => rfl
  | nameCount => rfl
  | builtinCount => rfl

theorem exists_code_of_outcomeWith? {nested : Nested}
    {run : Function → List Address → Evaluation (Option Address)} {outcome : Outcome Unit}
    (ends : session.outcomeWith? nested run request = some outcome) :
    ∃ code keep, session.errand request = .run code keep ∧
      (session.evaluation nested run code >>= fun _ => pure ()) (session.opening code) =
        outcome := by
  rw [outcomeWith?_eq, Option.map_eq_some_iff] at ends
  obtain ⟨code, found, ended⟩ := ends
  cases asked : session.errand request with
  | run other keep =>
      rw [asked] at found
      obtain rfl := Option.some.inj found
      exact ⟨other, keep, rfl, ended⟩
  | _ => simp [asked, Errand.code?] at found

theorem calls_opening (session : Session) (code : Code) :
    (session.opening code).calls = session.state.calls := by
  cases code <;> rfl

/-- What two evaluators do with code is related if they are. -/
theorem evaluation_related {run : Nested → Function → List Address → Evaluation (Option Address)}
    {coupling : Coupling session.interpreter.setup run} {first second : Nested}
    (related : first.Related coupling second) (code : Code) :
    (session.evaluation first (runCall session.interpreter.setup first) code).Related coupling
      .statement (session.evaluation second (run second) code) := by
  cases code with
  | statements ids => exact (related.sequence ids).bind fun _ => .pure none
  | statement id => exact (related.execute id).bind fun _ => .pure none
  | expression id => exact (related.operands.evaluate id).widen.bind fun _ => .pure _
  | call function arguments =>
      exact (related.callUser function _ .empty).widen.bind fun _ => .pure _

/-- The run that a request starts, with either of two evaluators. -/
theorem outcome?_related {coupling : Coupling session.interpreter.setup} {first second : Nested}
    (related : first.Related coupling second) {outcome : Outcome Unit}
    (ends : session.outcome? second request = some outcome) :
    ∃ (code : Code) (body body' : Evaluation Unit),
      body.Related coupling .statement body' ∧
      session.outcome? first request = some (body (session.opening code)) ∧
      outcome = body' (session.opening code) := by
  rw [← outcomeWith?_runCall] at ends
  obtain ⟨code, keep, asked, rfl⟩ := exists_code_of_outcomeWith? ends
  refine ⟨code, _, _, (evaluation_related related code).bind fun _ => .pure (), ?_, rfl⟩
  rw [← outcomeWith?_runCall, outcomeWith?_eq, asked]
  rfl

end Session

end ScriptEngine
