import ScriptEngine.Proofs.Control.Encounters
import ScriptEngine.Proofs.Hosting.Sessions

/-!
# Stacks between requests

A request leaves the control flow of an idle session as it was, whether the run
fails or not, so that a failed request cannot influence how the next one runs.
-/

namespace ScriptEngine

open Evaluation

namespace Nested

variable (setup : Setup) (fuel : Nat)

/-- Evaluating an expression leaves control flow as it was. -/
theorem evaluate_sameControl (id : ExpressionId) {start last : State}
    (ended : ((withFuel setup fuel).evaluate id start).state? = some last) :
    start.SameControl last := by
  rw [(Refines.withFuel setup fuel).operands] at ended
  exact (((Structured.withFuel_steady setup fuel).operands start).evaluate id .empty).of_state?
    (State.SameControl.refl start) ended

/-- And so does a call. -/
theorem callUser_sameControl (function : FunctionId) (arguments : List Address) (callSite : Span)
    {start last : State}
    (ended : (callUser setup (runCall setup (withFuel setup fuel)) function arguments callSite
      start).state? = some last) :
    start.SameControl last := by
  have steady := Structured.withFuel_steady setup fuel
  rw [(Refines.withFuel setup fuel).callUser steady] at ended
  exact (Structured.callUser_steady (Structured.runCall_leaves steady start) function arguments
    callSite).of_state? (State.SameControl.refl start) ended

theorem execute_sameControl (id : StatementId) {start last : State} (idle : start.Idle)
    (ended : ((withFuel setup fuel).execute id start).state? = some last) :
    start.SameControl last :=
  (sameControl_of_refines ((Refines.withFuel setup fuel).execute id)
    ((Structured.withFuel_steady setup fuel).execute id) idle).of_state? rfl ended

theorem sequence_sameControl (statements : List StatementId) {start last : State}
    (idle : start.Idle)
    (ended : (Evaluation.sequence (withFuel setup fuel) statements start).state? = some last) :
    start.SameControl last := by
  have steady := Structured.withFuel_steady setup fuel
  exact (sameControl_of_refines ((Refines.withFuel setup fuel).sequence steady statements)
    (Structured.sequence_completes steady statements) idle).of_state? rfl ended

end Nested

theorem State.Idle.hasSignal {state : State} (idle : state.Idle) : state.hasSignal = false := by
  rw [State.hasSignal, idle.ready.frame, idle.ready.toCalm.loopFinished]
  rfl

theorem Evaluation.state?_of_bind_pure {α β : Type} {body : Evaluation α} {view : α → β}
    {start last : State}
    (ended : ((body >>= fun result => pure (view result)) start).state? = some last) :
    (body start).state? = some last := by
  rw [bind_run] at ended
  cases outcome : body start with
  | value result after =>
      rw [outcome] at ended
      exact ended
  | failure failure after =>
      rw [outcome] at ended
      exact ended
  | stopped reason =>
      rw [outcome] at ended
      exact ended

namespace Session

/-- The same setup, and the control flow as it was. -/
structure SameControl (before after : Session) : Prop where
  setup : after.interpreter.setup = before.interpreter.setup
  state : before.state.SameControl after.state

variable {session after : Session} {reply : Reply}

theorem SameControl.refl (session : Session) : session.SameControl session :=
  ⟨rfl, .refl session.state⟩

theorem SameControl.trans {first second third : Session} (before : first.SameControl second)
    (after : second.SameControl third) : first.SameControl third :=
  ⟨after.setup.trans before.setup, before.state.trans after.state⟩

/-- What the host does with a value is done on the heap. -/
theorem deliver_sameControl (session : Session) (keep : Option String) (address : Address) :
    session.SameControl (session.deliver keep address).2 := by
  cases keep with
  | none => exact ⟨rfl, rfl, rfl, rfl⟩
  | some name => exact ⟨rfl, rfl, rfl, rfl⟩

theorem conclude_sameControl {α : Type} {outcome : Outcome α}
    {answer : Session → α → Reply × Session}
    (ended : ∀ {last}, outcome.state? = some last → session.state.SameControl last)
    (answers : ∀ (session : Session) result, session.SameControl (answer session result).2)
    (concluded : session.conclude outcome answer = .ok (reply, after)) :
    session.SameControl after := by
  unfold Session.conclude at concluded
  cases outcome with
  | value result state =>
      have answered := answers (session.withState state) result
      rw [Except.ok.inj concluded] at answered
      have continued : session.SameControl (session.withState state) := ⟨rfl, ended rfl⟩
      exact continued.trans answered
  | failure failure state =>
      obtain ⟨_, rfl⟩ := Prod.mk.inj (Except.ok.inj concluded)
      exact ⟨rfl, ended rfl⟩
  | stopped reason => simp at concluded

/-- Code leaves the control flow as it was. -/
theorem ran_sameControl (idle : session.state.Idle) {fuel : Nat} {code : Code} {last : State}
    (ended : (session.ran (.withFuel session.interpreter.setup fuel)
      (runCall session.interpreter.setup (.withFuel session.interpreter.setup fuel)) code).state? =
        some last) :
    session.state.SameControl last := by
  cases code with
  | statements ids =>
      exact Nested.sequence_sameControl _ fuel ids idle (state?_of_bind_pure ended)
  | statement id => exact Nested.execute_sameControl _ fuel id idle (state?_of_bind_pure ended)
  | expression id => exact Nested.evaluate_sameControl _ fuel id (state?_of_bind_pure ended)
  | call function arguments =>
      have described : session.state.SameControl (session.opening (.call function arguments)) :=
        ⟨rfl, rfl, rfl⟩
      exact described.trans
        (Nested.callUser_sameControl _ fuel function _ .empty (state?_of_bind_pure ended))

theorem perform_sameControl (idle : session.state.Idle) {fuel : Nat} {request : Request}
    (performed : session.perform fuel request = .ok (reply, after)) :
    session.SameControl after := by
  have answers : ∀ {answered : Reply × Session}, session.SameControl answered.2 →
      Except.ok (ε := Stop) answered = .ok (reply, after) → session.SameControl after := by
    intro answered same given
    rwa [Except.ok.inj given] at same
  rw [perform_eq] at performed
  generalize session.errand request = errand at performed
  cases errand with
  | run code keep =>
      refine conclude_sameControl (ran_sameControl idle) ?_ performed
      intro session result
      cases result with
      | none => exact .refl session
      | some address => exact session.deliver_sameControl keep address
  | lend address keep =>
      have retained : session.SameControl (session.onHeap fun heap =>
          ((), heap.retain address)).2 := ⟨rfl, rfl, rfl, rfl⟩
      exact answers (retained.trans (deliver_sameControl _ keep address)) performed
  | build description name =>
      have allocated : session.SameControl (session.onHeap fun heap =>
          description.allocate session.held heap).2 := ⟨rfl, rfl, rfl, rfl⟩
      exact answers (allocated.trans (deliver_sameControl _ (some name) _)) performed
  | drop name => exact answers ⟨rfl, rfl, rfl, rfl⟩ performed
  | sweep => exact answers ⟨rfl, rfl, rfl, rfl⟩ performed
  | clear => exact answers ⟨rfl, rfl, rfl, rfl⟩ performed
  | answer reply => exact answers (.refl session) performed

/-- Nothing of it changes while a session runs. -/
theorem Runs.sameControl {requests : List (Nat × Request)} {last : Session}
    (runs : Runs session requests last) (idle : session.state.Idle) :
    session.SameControl last := by
  induction runs with
  | nil session => exact .refl session
  | cons stepped _ induction =>
      have performed := perform_of_step stepped
      have same := perform_sameControl idle performed
      exact same.trans (induction (idle.of_sameControl same.state))

theorem Runs.idle {requests : List (Nat × Request)} {last : Session}
    (runs : Runs session requests last) (idle : session.state.Idle) : last.state.Idle :=
  idle.of_sameControl (runs.sameControl idle).state

end Session

/-- However a run ends, the stacks are as high as before, expressions and calls
leave everything on them as it was but the values of bindings, and statements
only bind names that they declare themselves in the innermost frame, and only
mark frames of a loop that was active for a `continue` of it.  Between requests
nothing but the root frame is there, and no request changes that. -/
theorem Interpreter.stacks_as_before (fuel : Nat) :
    (∀ (interpreter : Interpreter) id after,
      (interpreter.evaluate fuel id).state? = some after →
        interpreter.state.Keeps .expression after ∧ interpreter.state.SameControl after) ∧
    (∀ (interpreter : Interpreter) function arguments after,
      (interpreter.call fuel function arguments).state? = some after →
        interpreter.state.Keeps .expression after ∧ interpreter.state.SameControl after) ∧
    (∀ (interpreter : Interpreter) id after,
      (interpreter.execute fuel id).state? = some after →
        interpreter.state.Keeps .statement after ∧
        Nested.Explains interpreter.setup
          (Nested.Encounters interpreter.setup fuel [id] interpreter.state)
          interpreter.state after) ∧
    (∀ (interpreter : Interpreter) statements after,
      (interpreter.run fuel statements).state? = some after →
        interpreter.state.Keeps .statement after ∧
        Nested.Explains interpreter.setup
          (Nested.Encounters interpreter.setup fuel statements interpreter.state)
          interpreter.state after) ∧
    ∀ (program : Program) (builtins : BuiltinTable) (sink : Sink) (limit : Option Nat)
      (requests : List (Nat × Session.Request)) (session : Session),
      Session.Runs (.start program builtins sink limit) requests session →
        session.state.scopes.depth = 1 ∧ session.state.loops.depth = 0 ∧
        session.state.calls.depth = 0 ∧ session.state.hasSignal = false ∧
        ∀ request report next, session.step fuel request = .ok (report, next) →
          session.state.SameControl next.state := by
  refine ⟨?_, ?_, ?_, ?_, ?_⟩
  · intro interpreter id after ended
    have related := Nested.withFuel_related (.keeping interpreter.setup) fuel
    exact ⟨Keeps.of_state? (related.operands.evaluate id) ended,
      Nested.evaluate_sameControl _ fuel id ended⟩
  · intro interpreter function arguments after ended
    have related := Nested.withFuel_related (.keeping interpreter.setup) fuel
    exact ⟨Keeps.of_state? (related.callUser function arguments .empty) ended,
      Nested.callUser_sameControl _ fuel function arguments .empty ended⟩
  · intro interpreter id after ended
    have related := Nested.withFuel_related (.keeping interpreter.setup) fuel
    exact ⟨Keeps.of_state? (related.execute id) ended,
      Nested.execute_explained interpreter.setup fuel id interpreter.state after ended⟩
  · intro interpreter statements after ended
    have related := Nested.withFuel_related (.keeping interpreter.setup) fuel
    exact ⟨Keeps.of_state? (related.sequence statements) ended,
      Nested.sequence_explained (Nested.execute_explained interpreter.setup fuel) statements ended⟩
  · intro program builtins sink limit requests session runs
    have idle := runs.idle (State.idle_initial _ _ rfl)
    refine ⟨idle.depth, ?_, ?_, idle.hasSignal, ?_⟩
    · simp [Loops.depth, idle.loop]
    · simp [Calls.depth, idle.call]
    · intro request report next stepped
      have performed := Session.perform_of_step stepped
      exact (Session.perform_sameControl idle performed).state

/-- A loop that declares a variable and fails, and a function that runs it. -/
def Program.failingLoop : Program where
  expressions := #[⟨.literal (.int 1), .empty⟩, ⟨.reference ⟨1⟩, .empty⟩]
  statements :=
    #[⟨.declare ⟨0⟩ (some ⟨0⟩), .empty⟩, ⟨.expression ⟨1⟩, .empty⟩,
      ⟨.forever ⟨[⟨0⟩, ⟨1⟩], .empty⟩, .empty⟩]
  functions := #[⟨.empty, [], .none, ⟨[⟨2⟩], .empty⟩, .empty⟩]

theorem Interpreter.stacks_as_before_failingLoop :
    (∃ after, ((create .failingLoop .standard .silent none).evaluate 9 ⟨1⟩).state? = some after ∧
      (create .failingLoop .standard .silent none).state.SameControl after) ∧
    (∃ after, ((create .failingLoop .standard .silent none).call 9 ⟨0⟩ []).state? = some after ∧
      (create .failingLoop .standard .silent none).state.SameControl after) ∧
    (∃ after, ((create .failingLoop .standard .silent none).execute 9 ⟨2⟩).state? = some after ∧
      (create .failingLoop .standard .silent none).state.Keeps .statement after) ∧
    (∃ after, ((create .failingLoop .standard .silent none).run 9 [⟨0⟩, ⟨2⟩]).state? = some after ∧
      (create .failingLoop .standard .silent none).state.Keeps .statement after) ∧
    ∃ report next,
      (Session.start .failingLoop .standard .silent none).step 9 (.run [⟨0⟩, ⟨2⟩]) =
        .ok (report, next) ∧
      next.state.hasSignal = false ∧
      (Session.start .failingLoop .standard .silent none).state.SameControl next.state := by
  obtain ⟨evaluates, calls, executes, runs, sessions⟩ := stacks_as_before 9
  have ends : ∀ {α : Type} {outcome : Outcome α}, outcome.state?.isSome = true →
      ∃ after, outcome.state? = some after := Option.isSome_iff_exists.mp
  refine ⟨?_, ?_, ?_, ?_, ?_⟩
  · obtain ⟨after, ended⟩ := ends (show
      ((create .failingLoop .standard .silent none).evaluate 9 ⟨1⟩).state?.isSome = true by
        decide +kernel)
    exact ⟨after, ended, (evaluates _ _ _ ended).2⟩
  · obtain ⟨after, ended⟩ := ends (show
      ((create .failingLoop .standard .silent none).call 9 ⟨0⟩ []).state?.isSome = true by
        decide +kernel)
    exact ⟨after, ended, (calls _ _ _ _ ended).2⟩
  · obtain ⟨after, ended⟩ := ends (show
      ((create .failingLoop .standard .silent none).execute 9 ⟨2⟩).state?.isSome = true by
        decide +kernel)
    exact ⟨after, ended, (executes _ _ _ ended).1⟩
  · obtain ⟨after, ended⟩ := ends (show
      ((create .failingLoop .standard .silent none).run 9 [⟨0⟩, ⟨2⟩]).state?.isSome = true by
        decide +kernel)
    exact ⟨after, ended, (runs _ _ _ ended).1⟩
  · have answers : ((Session.start .failingLoop .standard .silent none).step 9
        (.run [⟨0⟩, ⟨2⟩])).toOption.isSome = true := by
      decide +kernel
    cases stepped : (Session.start .failingLoop .standard .silent none).step 9
        (.run [⟨0⟩, ⟨2⟩]) with
    | error reason => simp [stepped, Except.toOption] at answers
    | ok answer =>
        obtain ⟨report, next⟩ := answer
        have fresh := Session.Runs.nil (.start .failingLoop .standard .silent none)
        obtain ⟨_, _, _, _, steps⟩ := sessions _ _ _ _ _ _ fresh
        obtain ⟨_, _, _, silent, _⟩ := sessions _ _ _ _ _ _ (.cons stepped (.nil next))
        exact ⟨report, next, rfl, silent, steps _ _ _ stepped⟩

end ScriptEngine
