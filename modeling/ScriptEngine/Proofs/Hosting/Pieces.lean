import ScriptEngine.Proofs.Hosting.Stacks
import ScriptEngine.Proofs.Control.Approximation

/-!
# Programs in pieces

A statement list looks for signals after each statement.  At the root nothing
can leave one, so a list runs its statements to the first failure, and it makes
no difference whether a host runs it at once or in pieces.
-/

namespace ScriptEngine

open Evaluation

namespace Nested

variable {setup : Setup} {fuel : Nat}

/-- A statement that completes in an idle state hands over to the rest of its list. -/
theorem sequence_cons_of_idle (statement : StatementId) (others : List StatementId)
    {state : State} (idle : state.Idle) :
    sequence (withFuel setup fuel) (statement :: others) state =
      ((withFuel setup fuel).execute statement >>= fun () =>
        sequence (withFuel setup fuel) others) state := by
  have ended := execute_idle setup fuel statement state idle
  rw [Evaluation.sequence, bind_run, bind_run]
  cases executed : (withFuel setup fuel).execute statement state with
  | value result after =>
      rw [executed] at ended
      have quiet : after.hasSignal = false := State.Idle.hasSignal ended
      show (read State.hasSignal >>= _) after = _
      rw [bind_run]
      simp [Evaluation.read, quiet]
  | failure failure after => rfl
  | stopped reason => rfl

theorem sequence_append_of_idle (first second : List StatementId) {state : State}
    (idle : state.Idle) :
    sequence (withFuel setup fuel) (first ++ second) state =
      (sequence (withFuel setup fuel) first >>= fun () =>
        sequence (withFuel setup fuel) second) state := by
  induction first generalizing state with
  | nil => rfl
  | cons statement others induction =>
      have ended := execute_idle setup fuel statement state idle
      rw [List.cons_append, sequence_cons_of_idle statement _ idle, bind_run, bind_run,
        sequence_cons_of_idle statement _ idle, bind_run]
      cases executed : (withFuel setup fuel).execute statement state with
      | value result after =>
          rw [executed] at ended
          exact induction ended
      | failure failure after => rfl
      | stopped reason => rfl

end Nested

namespace Session

variable {session : Session} {fuel : Nat}

/-- Carry out requests one after another, each of them only if the one before
is done. -/
def feed (fuel : Nat) : List Request → Session → Except Stop (Reply × Session)
  | [], session => .ok (.done, session)
  | request :: others, session =>
      match session.perform fuel request with
      | .ok (.done, session) => feed fuel others session
      | answered => answered

theorem feed_singleton (request : Request) :
    feed fuel [request] session = session.perform fuel request := by
  rw [feed]
  split
  · rename_i after performed
    rw [performed, feed]
  · rfl

theorem perform_idle (idle : session.state.Idle) {request : Request} {reply : Reply}
    {next : Session} (performed : session.perform fuel request = .ok (reply, next)) :
    next.state.Idle :=
  idle.of_sameControl (perform_sameControl idle performed).state

/-- What is fed in two ways after the same request is the same, if it is for
every idle session. -/
theorem feed_cons_congr (idle : session.state.Idle) {request : Request}
    {others others' : List Request}
    (same : ∀ next : Session, next.state.Idle → feed fuel others next = feed fuel others' next) :
    feed fuel (request :: others) session = feed fuel (request :: others') session := by
  rw [feed, feed]
  split
  · rename_i next performed
    exact same next (perform_idle idle performed)
  · rfl

/-- Running two lists is running the one and then the other. -/
theorem perform_run_append (idle : session.state.Idle) (first second : List StatementId) :
    session.perform fuel (.run (first ++ second)) =
      feed fuel [.run first, .run second] session := by
  have idle : session.interpreter.state.Idle := idle
  rw [Session.perform, Interpreter.run, Nested.sequence_append_of_idle first second idle, bind_run,
    feed, Session.perform, Interpreter.run]
  cases ran : sequence (Nested.withFuel session.interpreter.setup fuel) first
      session.interpreter.state with
  | value result after =>
      have rest : feed fuel [.run second] (session.withState after) = _ :=
        feed_singleton (.run second)
      exact rest.symm
  | failure failure after => rfl
  | stopped reason => rfl

/-- Running a list is executing its first statement and running the others. -/
theorem perform_run_cons (idle : session.state.Idle) (statement : StatementId)
    (others : List StatementId) :
    session.perform fuel (.run (statement :: others)) =
      feed fuel [.execute statement, .run others] session := by
  have idle : session.interpreter.state.Idle := idle
  rw [Session.perform, Interpreter.run, Nested.sequence_cons_of_idle statement others idle,
    bind_run, feed, Session.perform, Interpreter.execute]
  cases executed :
      (Nested.withFuel session.interpreter.setup fuel).execute statement
        session.interpreter.state with
  | value result after =>
      have rest : feed fuel [.run others] (session.withState after) = _ :=
        feed_singleton (.run others)
      exact rest.symm
  | failure failure after => rfl
  | stopped reason => rfl

theorem perform_run_flatten (idle : session.state.Idle) (pieces : List (List StatementId)) :
    session.perform fuel (.run pieces.flatten) = feed fuel (pieces.map .run) session := by
  induction pieces generalizing session with
  | nil => rfl
  | cons piece pieces induction =>
      rw [List.flatten_cons, perform_run_append idle]
      refine feed_cons_congr idle fun next idle => ?_
      rw [feed_singleton]
      exact induction idle

theorem perform_run_eq_executes (idle : session.state.Idle) (statements : List StatementId) :
    session.perform fuel (.run statements) = feed fuel (statements.map .execute) session := by
  induction statements generalizing session with
  | nil => rfl
  | cons statement others induction =>
      rw [perform_run_cons idle]
      refine feed_cons_congr idle fun next idle => ?_
      rw [feed_singleton]
      exact induction idle

/-- An answer does not depend on how much fuel there was to spare. -/
theorem perform_run_of_fewer {more : Nat} (fewer : fuel ≤ more) {statements : List StatementId}
    {answer : Reply × Session}
    (performed : session.perform fuel (.run statements) = .ok answer) :
    session.perform more (.run statements) = .ok answer := by
  rw [Session.perform, Interpreter.run] at performed ⊢
  rcases (Nested.withFuel_below fewer).sequence statements session.interpreter.state with
    same | stopped
  · rwa [← same]
  · rw [stopped] at performed
    cases performed

/-- A program may be fed in pieces: as one list, as several lists, or one
statement at a time, each only if what came before was done.  Whatever a
completed statement contains, it leaves no signal and the rest of its list is run. -/
theorem Runs.run_in_pieces {program : Program} {builtins : BuiltinTable} {sink : Sink}
    {limit : Option Nat} {requests : List (Nat × Request)} {session : Session}
    (runs : Runs (start program builtins sink limit) requests session) (fuel : Nat) :
    (∀ first second : List StatementId,
      session.perform fuel (.run (first ++ second)) =
        feed fuel [.run first, .run second] session) ∧
    (∀ pieces : List (List StatementId),
      session.perform fuel (.run pieces.flatten) = feed fuel (pieces.map .run) session) ∧
    (∀ statements : List StatementId,
      session.perform fuel (.run statements) = feed fuel (statements.map .execute) session) ∧
    (∀ statement next, session.perform fuel (.execute statement) = .ok (.done, next) →
      next.state.hasSignal = false ∧
        ∀ others, session.perform fuel (.run (statement :: others)) =
          next.perform fuel (.run others)) ∧
    ∀ more statements answer, fuel ≤ more →
      session.perform fuel (.run statements) = .ok answer →
        session.perform more (.run statements) = .ok answer := by
  have idle := runs.idle (State.idle_initial _ _ rfl)
  refine ⟨perform_run_append idle, perform_run_flatten idle, perform_run_eq_executes idle, ?_,
    fun more statements answer fewer => perform_run_of_fewer fewer⟩
  intro statement next performed
  refine ⟨(perform_idle idle performed).hasSignal, fun others => ?_⟩
  rw [perform_run_cons idle, feed, performed]
  exact feed_singleton (.run others)

end Session

/-- A loop that is continued once and then left, and the assignment it does. -/
def Program.secondRound : Program where
  expressions := #[⟨.literal (.bool false), .empty⟩, ⟨.literal (.bool true), .empty⟩,
    ⟨.reference ⟨1⟩, .empty⟩, ⟨.assign ⟨2⟩ ⟨1⟩, .empty⟩]
  statements :=
    #[⟨.declare ⟨1⟩ (some ⟨0⟩), .empty⟩, ⟨.breakLoop, .empty⟩,
      ⟨.branch ⟨2⟩ ⟨[⟨1⟩], .empty⟩ none, .empty⟩, ⟨.expression ⟨3⟩, .empty⟩,
      ⟨.continueLoop, .empty⟩, ⟨.forever ⟨[⟨2⟩, ⟨3⟩, ⟨4⟩], .empty⟩, .empty⟩]

theorem Session.run_in_pieces_secondRound :
    ∃ report session next,
      (start .secondRound .standard .silent none).step 9 (.run [⟨0⟩]) = .ok (report, session) ∧
        session.perform 9 (.execute ⟨5⟩) = .ok (.done, next) ∧
        session.perform 9 (.run [⟨5⟩, ⟨3⟩]) =
          feed 9 [.execute ⟨5⟩, .execute ⟨3⟩] session ∧
        session.perform 9 (.run [⟨5⟩, ⟨3⟩]) = next.perform 9 (.run [⟨3⟩]) ∧
        ∀ answer, session.perform 9 (.run [⟨5⟩, ⟨3⟩]) = .ok answer →
          session.perform 10 (.run [⟨5⟩, ⟨3⟩]) = .ok answer := by
  have ran : ((start .secondRound .standard .silent none).step 9 (.run [⟨0⟩])).toOption.any
      (fun declared => match declared.2.perform 9 (.execute ⟨5⟩) with
        | .ok (.done, _) => true
        | _ => false) = true := by decide +kernel
  obtain ⟨report, session, declared, looped⟩ := exists_step_of_any ran
  have pieces := Runs.run_in_pieces (.cons declared (.nil session)) 9
  simp only at looped
  split at looped
  · rename_i next performed
    exact ⟨report, session, next, declared, performed, pieces.2.2.1 [⟨5⟩, ⟨3⟩],
      (pieces.2.2.2.1 ⟨5⟩ next performed).2 [⟨3⟩],
      fun answer => pieces.2.2.2.2 10 [⟨5⟩, ⟨3⟩] answer (by decide)⟩
  · cases looped

end ScriptEngine
