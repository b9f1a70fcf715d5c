import ScriptEngine.Proofs.Control.Backtraces
import ScriptEngine.Proofs.Control.Failures
import ScriptEngine.Proofs.Hosting.Stacks

/-!
# Backtraces of failed requests

The backtrace of a failure that a host is told of is the note that was made
where it was raised.  A call that fails on its own, before its body runs or
after, and one whose arguments fail, is not in the note: those are raised in the
caller.
-/

namespace ScriptEngine

open Evaluation

variable {setup : Setup} {fuel : Nat}

/-- A failure with a note. -/
def Failure.Noted (failure : Failure) : Prop :=
  failure.backtrace.isSome = true

theorem Evaluation.noting_notes {α : Type} (names : Interner) (body : Evaluation α) :
    (noting names body).FailsWith Failure.Noted := by
  refine ⟨fun {start last failure} failed => ?_⟩
  unfold noting at failed
  cases outcome : body start with
  | value result middle => simp [outcome, Outcome.noted] at failed
  | failure raised middle =>
      rw [outcome] at failed
      obtain ⟨rfl, _⟩ := Outcome.failure.inj failed
      rw [Failure.Noted, Failure.note]
      cases raised.backtrace with
      | some backtrace => rfl
      | none => rfl
  | stopped reason => simp [outcome, Outcome.noted] at failed

namespace Nested

theorem recording_evaluate_notes (setup : Setup) (fuel : Nat) (id : ExpressionId) :
    ((recording setup fuel).evaluate id).FailsWith Failure.Noted := by
  cases fuel with
  | zero => exact .stop _
  | succ fuel => exact noting_notes _ _

theorem recording_execute_notes (setup : Setup) (fuel : Nat) (id : StatementId) :
    ((recording setup fuel).execute id).FailsWith Failure.Noted := by
  cases fuel with
  | zero => exact .stop _
  | succ fuel => exact noting_notes _ _

/-- Arguments fail only where one of them does. -/
theorem recording_evaluateAll_notes (setup : Setup) (fuel : Nat) (ids : List ExpressionId) :
    (evaluateAll (recording setup fuel).toOperands ids).FailsWith Failure.Noted := by
  induction ids with
  | nil => exact .pure []
  | cons id others induction =>
      apply (recording_evaluate_notes setup fuel id).bind
      intro first
      exact (induction.guarding [first]).bind fun rest => .pure (first :: rest)

end Nested

/-! ## Calls -/

/-- A failure of a call itself, and not of its arguments or its body. -/
def Cause.IsOfCall (cause : Cause) : Prop :=
  (∃ name expected actual, cause = .arityMismatch name expected actual) ∨
    (∃ limit, cause = .stackOverflow limit) ∨ ∃ name, cause = .missingResult name

/-- What a call has to do with the note of its failure.  It can fail on its own,
which is noted with the calls that were active before it.  Otherwise the note is
that of a failure of its body, which runs with the call in front of those. -/
def Nested.CallNotes (setup : Setup) (nested : Nested) (id : FunctionId)
    (arguments : List Address) (callSite : Span) (before : Calls) (failure : Failure) : Prop :=
  (failure.cause.IsOfCall ∧ failure.backtrace = some (before.backtrace setup.program.names)) ∨
    ∃ function entered raised inner,
      setup.program.function? id = some function ∧
      (entered.calls.backtrace setup.program.names).calls =
        ⟨setup.program.names.lookup function.name, callSite⟩ ::
          (before.backtrace setup.program.names).calls ∧
      runBody nested function arguments entered = .failure raised inner ∧
      raised.backtrace.isSome = true ∧ failure.backtrace = raised.backtrace

namespace Evaluation

variable {α β : Type} {start last : State} {raised : Failure}

/-- A call that may not be entered fails with the overflow of the stack, and one
that is entered is in front of the calls that were active. -/
theorem enterCall_cases (setup : Setup) (function : Function) (callSite : Span)
    (arguments : List Address) (start : State) :
    (∃ limit, guarding arguments (enterCall setup function callSite) start =
      .failure (start.calls.attach setup.program.names
        ((Failure.of (.stackOverflow limit)).locate callSite)) (start.releaseAll arguments)) ∨
    ∃ entered, guarding arguments (enterCall setup function callSite) start = .value () entered ∧
      (entered.calls.backtrace setup.program.names).calls =
        ⟨setup.program.names.lookup function.name, callSite⟩ ::
          (start.calls.backtrace setup.program.names).calls := by
  rw [guarding, enterCall]
  cases start.calls.exceeded? with
  | some limit => exact Or.inl ⟨limit, rfl⟩
  | none => exact Or.inr ⟨_, rfl, Calls.backtrace_push _ _ _⟩

end Evaluation

namespace Nested.CallNotes

variable {nested : Nested} {id : FunctionId} {arguments : List Address} {callSite : Span}
  {start last : State} {raised : Failure}

theorem of_own {calls : Calls} (cause : Cause) (own : cause.IsOfCall)
    (same : calls.entered = start.calls.entered) :
    CallNotes setup nested id arguments callSite start.calls
      (((Failure.of cause).locate callSite).note calls setup.program.names) := by
  refine Or.inl ⟨own, ?_⟩
  rw [← Calls.backtrace_entered start.calls, ← same, Calls.backtrace_entered]
  rfl

/-- A call leaves the note that is made inside alone, and makes none that is not
made there. -/
theorem of_failure
    (notes : ∀ function addresses, (runBody nested function addresses).FailsWith Failure.Noted)
    (keeps : (callUser setup (runCall setup nested) id arguments callSite).Keeps .expression)
    (failed : callUser setup (runCall setup nested) id arguments callSite start =
      .failure raised last) :
    CallNotes setup nested id arguments callSite start.calls
      (raised.note last.calls setup.program.names) := by
  have same := (keeps.of_failure failed).calls
  unfold callUser at failed
  cases found : setup.program.function? id with
  | none => simp [found, stop] at failed
  | some function =>
      simp only [found] at failed
      split at failed
      · obtain ⟨rfl, rfl⟩ := Outcome.failure.inj failed
        exact of_own _ (Or.inl ⟨_, _, _, rfl⟩) same
      · rcases enterCall_cases setup function callSite arguments start with
          ⟨limit, overflows⟩ | ⟨entered, enters, inside⟩
        · rw [bind_run, overflows] at failed
          obtain ⟨rfl, rfl⟩ := Outcome.failure.inj failed
          rw [State.releaseAll_eq, Failure.note_attach]
          exact of_own _ (Or.inr (Or.inl ⟨limit, rfl⟩)) rfl
        · rw [bind_run, enters] at failed
          rcases failure_bind failed with failed | ⟨result?, returned, _, failed⟩
          · obtain ⟨failure, inner, broken, rfl⟩ := runCall_failure failed
            have noted := (notes function arguments).blamed broken
            refine Or.inr ⟨function, entered, failure, inner, found, inside, broken, noted, ?_⟩
            obtain ⟨backtrace, known⟩ := Option.isSome_iff_exists.mp noted
            simp [Calls.attach, Failure.note, known]
          · cases result? with
            | some result => simp [Pure.pure, Evaluation.pure] at failed
            | none =>
                dsimp only at failed
                split at failed
                · simp [newScalar, onHeap] at failed
                · obtain ⟨rfl, rfl⟩ := Outcome.failure.inj failed
                  exact of_own _ (Or.inr (Or.inr ⟨_, rfl⟩)) same

end Nested.CallNotes

namespace Nested

theorem CallNotes.locate {nested : Nested} {id : FunctionId} {arguments : List Address}
    {callSite : Span} {before : Calls} {failure : Failure}
    (notes : CallNotes setup nested id arguments callSite before failure) (span : Span) :
    CallNotes setup nested id arguments callSite before (failure.locate span) :=
  notes

theorem CallNotes.of_entered {nested : Nested} {id : FunctionId} {arguments : List Address}
    {callSite : Span} {before after : Calls} {failure : Failure}
    (notes : CallNotes setup nested id arguments callSite after failure)
    (same : after.entered = before.entered) :
    CallNotes setup nested id arguments callSite before failure := by
  have listed := congrArg (Calls.backtrace · setup.program.names) same
  simp only [Calls.backtrace_entered] at listed
  rwa [CallNotes, listed] at notes

theorem recording_callUser_notes (fuel : Nat) {id : FunctionId} {arguments : List Address}
    {callSite : Span} {start last : State} {failure : Failure}
    (failed : (callUser setup (runCall setup (recording setup fuel)) id arguments callSite
      start).noted setup.program.names = .failure failure last) :
    CallNotes setup (recording setup fuel) id arguments callSite start.calls failure := by
  cases outcome : callUser setup (runCall setup (recording setup fuel)) id arguments callSite
      start with
  | value result after => simp [outcome, Outcome.noted] at failed
  | failure raised after =>
      rw [outcome] at failed
      obtain ⟨rfl, rfl⟩ := Outcome.failure.inj failed
      exact .of_failure (fun _ _ => .runBody (fun id _ => recording_execute_notes setup fuel id) _)
        ((recording_keeps setup fuel).callUser id arguments callSite) outcome
  | stopped reason => simp [outcome, Outcome.noted] at failed

/-- A call fails with the note of an argument, or as calls do. -/
theorem recording_call_notes (fuel : Nat) {id : ExpressionId} {callee : FunctionId}
    {arguments : List ExpressionId} {span : Span} {start last : State} {failure : Failure}
    (found : setup.program.expression? id = some ⟨.call (.user callee) arguments, span⟩)
    (failed : (recording setup (fuel + 1)).evaluate id start = .failure failure last) :
    (∃ raised, evaluateAll (recording setup fuel).toOperands arguments start =
        .failure raised last ∧
      raised.backtrace.isSome = true ∧ failure.backtrace = raised.backtrace) ∨
    ∃ addresses middle, evaluateAll (recording setup fuel).toOperands arguments start =
        .value addresses middle ∧
      CallNotes setup (recording setup fuel) callee addresses span start.calls failure := by
  have keeps := (recording_keeps setup fuel).operands.evaluateAll arguments
  have node : (recording setup (fuel + 1)).evaluate id =
      Evaluation.noting setup.program.names (located span
        (call setup (recording setup fuel).toOperands
          (callUser setup (runCall setup (recording setup fuel))) (.user callee) arguments
          span)) := by
    show Evaluation.noting _ (withExpression setup id _) = _
    rw [withExpression]
    simp only [found]
    rfl
  rw [node, Evaluation.noting, located] at failed
  cases outcome : call setup (recording setup fuel).toOperands
      (callUser setup (runCall setup (recording setup fuel))) (.user callee) arguments span start with
  | value result after => simp [outcome, Outcome.noted] at failed
  | failure raised after =>
      simp only [outcome] at failed
      obtain ⟨rfl, rfl⟩ := Outcome.failure.inj failed
      rcases failure_bind outcome with failed | ⟨addresses, middle, evaluated, failed⟩
      · have noted := (recording_evaluateAll_notes setup fuel arguments).blamed failed
        refine Or.inl ⟨raised, failed, noted, ?_⟩
        obtain ⟨backtrace, known⟩ := Option.isSome_iff_exists.mp noted
        simp [Failure.note, Failure.locate, known]
      · refine Or.inr ⟨addresses, middle, evaluated, ?_⟩
        have notes := recording_callUser_notes fuel (congrArg (Outcome.noted _) failed)
        exact (notes.of_entered (keeps.of_value evaluated).calls).locate span
  | stopped reason => simp [outcome, Outcome.noted] at failed

end Nested

/-! ## Requests -/

/-- A backtrace of active calls, which are not more than the limit. -/
def Backtrace.Possible (limit : Option Nat) (backtrace : Backtrace) : Prop :=
  backtrace.calls ≠ [] ∧ ∀ bound, limit = some bound → backtrace.calls.length ≤ bound

theorem Evaluation.Traces.Covers.possible {limit : Option Nat} (names : Interner) :
    Covers (Backtrace.Possible limit) limit names := by
  intro calls frame within current
  constructor
  · obtain ⟨others, split⟩ := Array.back?_eq_some_iff.mp current
    simp [Calls.backtrace, split]
  · intro bound limited
    rw [Calls.length_backtrace]
    exact within.below bound limited

theorem Evaluation.failure_void {α : Type} {body : Evaluation α} {start last : State}
    {failure : Failure} (failed : body start = .failure failure last) :
    (body >>= fun _ => pure ()) start = .failure failure last := by
  rw [bind_run, failed]

namespace Session

variable {session after : Session} {request : Request} {failure : Failure}

theorem failure_of_conclude {α : Type} {outcome : Outcome α}
    {answer : Session → α → Reply × Session}
    (answers : ∀ session result, (answer session result).1 ≠ .failed failure)
    (concluded : session.conclude outcome answer = .ok (.failed failure, after)) :
    outcome = .failure failure after.state := by
  unfold conclude at concluded
  cases outcome with
  | value result state =>
      have answered := answers (session.withState state) result
      rw [Except.ok.inj concluded] at answered
      exact absurd rfl answered
  | failure raised state =>
      obtain ⟨replied, rfl⟩ := Prod.mk.inj (Except.ok.inj concluded)
      rw [Reply.failed.inj replied]
      rfl
  | stopped reason => simp at concluded

theorem deliver_succeeds (session : Session) (keep : Option String) (address : Address) :
    (session.deliver keep address).1 ≠ .failed failure := by
  cases keep with
  | none => exact Reply.noConfusion
  | some name => exact Reply.noConfusion

theorem handOver_succeeds (keep : Option String) (session : Session) (result : Option Address) :
    (handOver keep session result).1 ≠ .failed failure := by
  cases result with
  | none => exact Reply.noConfusion
  | some address => exact deliver_succeeds session keep address

/-- A request that is answered with a failure ran into it. -/
theorem outcome?_of_failed {fuel : Nat}
    (performed : session.perform fuel request = .ok (.failed failure, after)) :
    session.outcome? (.withFuel session.interpreter.setup fuel) request =
      some (.failure failure after.state) := by
  have fits := session.errand_fits request
  rw [perform_eq] at performed
  rw [← outcomeWith?_runCall, outcomeWith?_eq]
  generalize session.errand request = errand at fits performed
  cases errand with
  | run code keep =>
      have ran := failure_of_conclude (handOver_succeeds keep) performed
      exact congrArg some (failure_void ran)
  | lend address keep =>
      exact absurd (congrArg Prod.fst (Except.ok.inj performed)) (deliver_succeeds _ keep _)
  | build description name =>
      exact absurd (congrArg Prod.fst (Except.ok.inj performed)) (deliver_succeeds _ (some name) _)
  | answer reply => exact absurd (congrArg Prod.fst (Except.ok.inj performed)) (fits failure)
  | drop name => simp [carryOut] at performed
  | sweep => simp [carryOut] at performed
  | clear => simp [carryOut] at performed

/-- The backtrace of a failure is the note of its calls, unless that is empty. -/
theorem backtrace_noted {session after : Session} {limit : Option Nat} {fuel : Nat}
    (untraced : session.interpreter.setup.builtins.Untraced)
    (outside : session.state.calls = { limit := limit })
    (left : after.state.calls = { limit := limit })
    (ends : session.outcome? (.withFuel session.interpreter.setup fuel) request =
      some (.failure failure after.state)) :
    ∃ noted : Backtrace,
      (session.outcome? (.recording session.interpreter.setup fuel) request).map
          (·.noted session.interpreter.setup.program.names) =
        some (.failure { failure with backtrace := some noted } after.state) ∧
      failure.backtrace = (if noted.calls = [] then none else some noted) ∧
      ∀ bound, limit = some bound → noted.calls.length ≤ bound := by
  have possible : ∀ backtrace ∈ failure.backtrace, backtrace.Possible limit := by
    have related := Nested.withFuel_related
      (.tracing session.interpreter.setup limit _ untraced (.possible _)) fuel
    obtain ⟨code, body, body', traces, first, second⟩ := outcome?_related related ends
    have failed : body (session.opening code) = .failure failure after.state :=
      Option.some.inj (first.symm.trans ends)
    have within : (session.opening code).calls.Within limit := by
      rw [calls_opening, outside]
      exact ⟨rfl, fun bound _ => Nat.zero_le bound⟩
    have possible := traces.accepted _ within
    rwa [failed] at possible
  obtain ⟨code, body, body', agrees, first, second⟩ :=
    outcome?_related (Nested.recording_agrees session.interpreter.setup fuel) ends
  have noted : (body (session.opening code)).noted session.interpreter.setup.program.names =
      .failure (failure.note after.state.calls session.interpreter.setup.program.names)
        after.state := by
    rw [agrees (session.opening code), ← second, Outcome.noted]
  rw [first, Option.map_some, noted, left, Failure.note]
  cases known : failure.backtrace with
  | none => exact ⟨⟨[]⟩, rfl, rfl, fun bound _ => Nat.zero_le bound⟩
  | some backtrace =>
      obtain ⟨active, below⟩ := possible backtrace known
      exact ⟨backtrace, rfl, (if_neg active).symm, below⟩

end Session

/-- The backtrace that a host is told of a failure is the one noted where the
failure was raised: none if no call was active there, and otherwise those that
were, innermost first and never more than the limit.  Calls that fail on their
own and arguments of calls are noted without the call. -/
theorem Session.Runs.backtrace_exact {program : Program} {builtins : BuiltinTable} {sink : Sink}
    {limit : Option Nat} {requests : List (Nat × Request)} {session after : Session} {fuel : Nat}
    {request : Request} {report : Report} {failure : Failure} (untraced : builtins.Untraced)
    (runs : Runs (.start program builtins sink limit) requests session)
    (stepped : session.step fuel request = .ok (report, after))
    (failed : report.reply = .failed failure) :
    (∃ noted : Backtrace,
      (session.outcome? (.recording ⟨program, builtins⟩ fuel) request).map
          (·.noted program.names) =
        some (.failure { failure with backtrace := some noted } after.state) ∧
      failure.backtrace = (if noted.calls = [] then none else some noted) ∧
      ∀ bound, limit = some bound → noted.calls.length ≤ bound) ∧
    (∀ fuel id callee arguments span start raised last,
      program.expression? id = some ⟨.call (.user callee) arguments, span⟩ →
      (Nested.recording ⟨program, builtins⟩ (fuel + 1)).evaluate id start = .failure raised last →
      (∃ inner, evaluateAll (Nested.recording ⟨program, builtins⟩ fuel).toOperands arguments
          start = .failure inner last ∧
        inner.backtrace.isSome = true ∧ raised.backtrace = inner.backtrace) ∨
      ∃ addresses middle, evaluateAll (Nested.recording ⟨program, builtins⟩ fuel).toOperands
          arguments start = .value addresses middle ∧
        Nested.CallNotes ⟨program, builtins⟩ (.recording ⟨program, builtins⟩ fuel) callee addresses
          span start.calls raised) ∧
    ∀ fuel callee arguments callSite start raised last,
      (callUser ⟨program, builtins⟩ (runCall ⟨program, builtins⟩
        (.recording ⟨program, builtins⟩ fuel)) callee arguments callSite start).noted
          program.names = .failure raised last →
      Nested.CallNotes ⟨program, builtins⟩ (.recording ⟨program, builtins⟩ fuel) callee arguments
        callSite start.calls raised := by
  have idle : (Session.start program builtins sink limit).state.Idle :=
    State.idle_initial _ _ rfl
  have before := runs.sameControl idle
  have performed := perform_of_step stepped
  rw [failed] at performed
  have during := perform_sameControl (idle.of_sameControl before.state) performed
  have setup : session.interpreter.setup = ⟨program, builtins⟩ := before.setup
  have outside : session.state.calls = { limit := limit } := before.state.calls
  refine ⟨?_, ?_, ?_⟩
  · rw [← setup]
    have noted := backtrace_noted (setup ▸ untraced) outside (during.state.calls.trans outside)
      (outcome?_of_failed performed)
    rwa [show session.interpreter.setup.program = program by rw [setup]] at noted
  · intro fuel id callee arguments span start raised last found failed
    exact Nested.recording_call_notes fuel found failed
  · intro fuel callee arguments callSite start raised last failed
    exact Nested.recording_callUser_notes fuel failed

/-- The standard functions do not fail. -/
theorem BuiltinTable.Untraced.standard : BuiltinTable.standard.Untraced := by
  intro builtin member arguments heap output failure failed
  rcases List.mem_pair.mp member with rfl | rfl
  · simp [Builtin.println, Builtin.write, Builtin.computed] at failed
  · simp [Builtin.print, Builtin.write, Builtin.computed] at failed

/-- A function that only calls itself, and a statement that calls it. -/
def Program.runaway : Program where
  expressions := #[⟨.call (.user ⟨0⟩) [], ⟨3, 6⟩⟩]
  statements := #[⟨.expression ⟨0⟩, ⟨3, 7⟩⟩]
  functions := #[⟨⟨1⟩, [], .none, ⟨[⟨0⟩], .empty⟩, .empty⟩]
  names := (Interner.initial.internAll ["runaway"]).2

/-- The failure that a request is answered with. -/
def Session.failure? : Except Stop (Report × Session) → Option Failure
  | .ok (⟨.failed failure, _⟩, _) => some failure
  | _ => none

theorem Session.of_failure? {answer : Except Stop (Report × Session)} {failure : Failure}
    (failed : failure? answer = some failure) :
    ∃ report after, answer = .ok (report, after) ∧ report.reply = .failed failure := by
  unfold failure? at failed
  split at failed
  · rename_i raised printed after
    exact ⟨_, after, rfl, by rw [Option.some.inj failed]⟩
  · simp at failed

theorem Session.Runs.backtrace_exact_runaway :
    ∃ report after failure noted,
      (Session.start .runaway .standard .silent (some 2)).step 9 (.run [⟨0⟩]) =
        .ok (report, after) ∧
      report.reply = .failed failure ∧
      failure.backtrace = some ⟨[⟨"runaway", ⟨3, 6⟩⟩, ⟨"runaway", ⟨3, 6⟩⟩]⟩ ∧
      failure.backtrace = (if noted.calls = [] then none else some noted) ∧
      noted.calls.length ≤ 2 ∧
      (∃ raised last, (Nested.recording ⟨.runaway, .standard⟩ 9).evaluate ⟨0⟩
          { calls := { limit := some 0 } } = .failure raised last ∧
        Nested.CallNotes ⟨.runaway, .standard⟩ (.recording ⟨.runaway, .standard⟩ 8) ⟨0⟩ [] ⟨3, 6⟩
          { limit := some 0 } raised) := by
  have failed : failure? ((Session.start .runaway .standard .silent (some 2)).step 9
      (.run [⟨0⟩])) =
        some ⟨.stackOverflow 2, some ⟨3, 6⟩,
          some ⟨[⟨"runaway", ⟨3, 6⟩⟩, ⟨"runaway", ⟨3, 6⟩⟩]⟩⟩ := by
    decide +kernel
  obtain ⟨report, after, stepped, failed⟩ := of_failure? failed
  obtain ⟨⟨noted, _, same, below⟩, calls, _⟩ :=
    backtrace_exact .standard (.nil _) stepped failed
  refine ⟨report, after, _, noted, stepped, failed, rfl, same, below 2 rfl, _, _, rfl, ?_⟩
  rcases calls 8 ⟨0⟩ ⟨0⟩ [] ⟨3, 6⟩ { calls := { limit := some 0 } } _ _ rfl rfl with
    ⟨inner, never, _⟩ | ⟨addresses, middle, evaluated, notes⟩
  · simp [evaluateAll, Pure.pure, Evaluation.pure] at never
  · obtain ⟨rfl, _⟩ := Outcome.value.inj evaluated
    exact notes

end ScriptEngine
