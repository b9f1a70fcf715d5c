import ScriptEngine.Proofs.Control.Orderliness
import ScriptEngine.Proofs.Hosting.Limits
import ScriptEngine.Proofs.Hosting.Stacks

/-!
# Alignment of the stacks during requests

A session between two requests has nothing but the root frame on its stacks, so a
request starts a run that is orderly.
-/

namespace ScriptEngine

open Evaluation

theorem State.Idle.regular {state : State} (idle : state.Idle) : state.Regular := by
  have noLoops : state.loops.depths = [] := by simp [Loops.depths, idle.loop]
  refine ⟨⟨⟨?_, ?_, ?_, ?_, ?_⟩, ?_⟩, ?_⟩
  · simp [idle.call]
  · simp [noLoops]
  · simp [idle.call]
  · simp [noLoops]
  · simp [noLoops]
  · intro signal
    cases signal with
    | skip => simp [State.Pending, idle.scope]
    | broken => simp [State.Pending, idle.loop]
    | returned => simp [State.Pending, idle.call]
  · rw [Calls.scopeFloor, idle.current?, idle.depth]
    exact Nat.one_pos

namespace Session

variable {session : Session} {request : Request}

/-- Whether there is a state of some kind where the evaluation of an expression
begins or ends while a request is carried out. -/
def Evaluates (session : Session) (fuel : Nat) (request : Request) (kind : State → Prop) : Prop :=
  session.outcome? (.attended session.interpreter.setup (¬ kind ·) fuel) request =
    some (.stopped .interrupted)

theorem uninterrupted_of_orderly (idle : session.state.Idle) {nested : Nested}
    (orderly : nested.Orderly) {run : Function → List Address → Evaluation (Option Address)}
    (leaves : ∀ start : State, start.Regular → Leaves start run) :
    session.outcomeWith? nested run request ≠ some (.stopped .interrupted) := by
  have regular := idle.regular
  have same := State.SameControl.refl session.state
  intro ended
  rcases outcomeWith?_cases ended with ⟨statements, rfl, ran⟩ | ⟨statement, rfl, ran⟩ |
    ⟨expression, keep, rfl, ran⟩ | ⟨function, arguments, keep, rfl, _, ran⟩
  · exact (orderly.sequence regular idle.ready statements).uninterrupted same ran
  · exact (orderly.execute statement _ regular idle.ready).uninterrupted same ran
  · exact ((orderly.operands _ regular).evaluate expression .empty).void.uninterrupted same ran
  · exact (Structured.callUser_steady (leaves _ regular) function _ .empty).void.uninterrupted
      (same.onHeap _) ran

/-- At every moment of every run the heights that calls and loops recorded agree
with each other and with the stacks, and what is signalled is signalled at the
top, to the current call or its innermost loop.  Expressions are evaluated only
where nothing is signalled, and so are requests carried out. -/
theorem Runs.signals_aligned {program : Program} {builtins : BuiltinTable} {sink : Sink}
    {limit : Option Nat} {requests : List (Nat × Request)}
    (runs : Runs (start program builtins sink limit) requests session) :
    session.state.Aligned ∧ session.state.Quiet ∧
    ∀ fuel request,
      (¬ session.Passes fuel request fun moment => ¬ moment.Aligned) ∧
      ¬ session.Evaluates fuel request fun moment => ¬ moment.Quiet := by
  have idle := runs.idle (State.idle_initial _ _ rfl)
  have regular := idle.regular
  refine ⟨regular.aligned, regular.quiet, fun fuel request => ⟨?_, ?_⟩⟩
  · obtain ⟨orderly, leaves⟩ := Nested.monitored_orderly session.interpreter.setup
      (fun _ aligned => not_not_intro aligned) fuel
    exact uninterrupted_of_orderly idle orderly leaves
  · have orderly := Nested.attended_orderly session.interpreter.setup
      (fun _ settled => not_not_intro settled.quiet) fuel
    rw [Evaluates, ← outcomeWith?_runCall]
    exact uninterrupted_of_orderly idle orderly fun _ => orderly.runCall

/-- A function with a loop that it leaves from within a block. -/
def leavingFunction : Program where
  statements := #[⟨.breakLoop, .empty⟩, ⟨.block ⟨[⟨0⟩], .empty⟩, .empty⟩,
    ⟨.forever ⟨[⟨1⟩], .empty⟩, .empty⟩]
  functions := #[⟨.empty, [], .none, ⟨[⟨2⟩], .empty⟩, .empty⟩]

theorem Runs.signals_aligned_leavingFunction :
    ∃ report session,
      (start leavingFunction .standard .silent none).step 9 (.call ⟨0⟩ [] none) =
        .ok (report, session) ∧
      session.state.Aligned ∧ session.state.Quiet ∧
      (¬ session.Passes 9 (.call ⟨0⟩ [] none) fun moment => ¬ moment.Aligned) ∧
      ¬ session.Evaluates 9 (.call ⟨0⟩ [] none) fun moment => ¬ moment.Quiet := by
  obtain ⟨report, session, stepped, _⟩ :=
    @exists_step_of_any (start leavingFunction .standard .silent none) 9 (.call ⟨0⟩ [] none)
      (fun _ => true) (by decide +kernel)
  obtain ⟨aligned, quiet, moments⟩ := signals_aligned (.cons stepped (.nil session))
  exact ⟨report, session, stepped, aligned, quiet, moments 9 _⟩

end Session

end ScriptEngine
