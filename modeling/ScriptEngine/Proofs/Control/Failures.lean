import ScriptEngine.Proofs.Custody.Triple

/-!
# Failures

What is true of all failures of an evaluation, from what is true of those of
its parts.  Evaluations that only pass failures on add nothing to it.
-/

namespace ScriptEngine

open Evaluation

variable {α β : Type} {setup : Setup}

/-- What an evaluation gives, and the state after it. -/
def Outcome.value? : Outcome α → Option (α × State)
  | .value result state => some (result, state)
  | .failure _ _ => none
  | .stopped _ => none

theorem Outcome.eq_of_value? {outcome : Outcome α} {result : α} {state : State}
    (given : outcome.value? = some (result, state)) : outcome = .value result state := by
  cases outcome with
  | value other last =>
      cases given
      rfl
  | failure failure last => cases given
  | stopped reason => cases given

/-- What passes a check was given. -/
theorem Outcome.exists_of_any {outcome : Outcome α} {check : α × State → Bool}
    (passed : outcome.value?.any check = true) :
    ∃ result state, outcome = .value result state ∧ check (result, state) = true := by
  obtain ⟨⟨result, state⟩, given, passed⟩ := (Option.any_eq_true _ _).mp passed
  exact ⟨result, state, eq_of_value? given, passed⟩

/-- The failure that an evaluation ends with. -/
def Outcome.failure? : Outcome α → Option Failure
  | .value _ _ => none
  | .failure raised _ => some raised
  | .stopped _ => none

theorem Outcome.of_failure? {outcome : Outcome α} {raised : Failure}
    (failed : outcome.failure? = some raised) : ∃ last, outcome = .failure raised last := by
  cases outcome with
  | value result last => simp [failure?] at failed
  | failure other last => exact ⟨last, by rw [← Option.some.inj failed]⟩
  | stopped reason => simp [failure?] at failed

theorem Calls.cause_attach (calls : Calls) (names : Interner) (failure : Failure) :
    (calls.attach names failure).cause = failure.cause := by
  unfold Calls.attach Failure.attach
  split
  · rfl
  · split
    · rfl
    · rfl

namespace Evaluation

variable {start last : State} {raised : Failure}

theorem failure_bind {body : Evaluation α} {next : α → Evaluation β}
    (failed : (body >>= next) start = .failure raised last) :
    body start = .failure raised last ∨
      ∃ result middle, body start = .value result middle ∧
        next result middle = .failure raised last := by
  rw [bind_run] at failed
  cases outcome : body start with
  | value result middle =>
      rw [outcome] at failed
      exact Or.inr ⟨result, middle, rfl, failed⟩
  | failure failure middle =>
      rw [outcome] at failed
      obtain ⟨rfl, rfl⟩ := Outcome.failure.inj failed
      exact Or.inl rfl
  | stopped reason => simp [outcome] at failed

theorem failure_located {body : Evaluation α} {span : Span}
    (failed : located span body start = .failure raised last) :
    ∃ failure, body start = .failure failure last ∧ raised = failure.locate span := by
  unfold located at failed
  cases outcome : body start with
  | value result middle => simp [outcome] at failed
  | failure failure middle =>
      simp only [outcome] at failed
      obtain ⟨rfl, rfl⟩ := Outcome.failure.inj failed
      exact ⟨failure, rfl, rfl⟩
  | stopped reason => simp [outcome] at failed

theorem failure_ensuring {body : Evaluation α} {change : State → State}
    (failed : ensuring body change start = .failure raised last) :
    ∃ middle, body start = .failure raised middle ∧ last = change middle := by
  unfold ensuring at failed
  cases outcome : body start with
  | value result middle => simp [outcome] at failed
  | failure failure middle =>
      simp only [outcome] at failed
      obtain ⟨rfl, rfl⟩ := Outcome.failure.inj failed
      exact ⟨middle, rfl, rfl⟩
  | stopped reason => simp [outcome] at failed

/-- Only the body of a call can fail once the call is entered. -/
theorem runCall_failure {nested : Nested} {function : Function} {arguments : List Address}
    (failed : runCall setup nested function arguments start = .failure raised last) :
    ∃ failure inner, runBody nested function arguments start = .failure failure inner ∧
      raised = inner.calls.attach setup.program.names failure := by
  unfold runCall at failed
  cases outcome : runBody nested function arguments start with
  | value result inner =>
      simp only [outcome, popCall] at failed
      split at failed
      · simp at failed
      · simp at failed
  | failure failure inner =>
      refine ⟨failure, inner, rfl, ?_⟩
      simp only [outcome, abandonCall] at failed
      split at failed
      · exact (Outcome.failure.inj failed).1.symm
      · exact (Outcome.failure.inj failed).1.symm
  | stopped reason => simp [outcome] at failed

end Evaluation

/-- What all failures of an evaluation are like. -/
structure Evaluation.FailsWith (blames : Failure → Prop) (body : Evaluation α) : Prop where
  blamed : ∀ {start last failure}, body start = .failure failure last → blames failure

namespace Evaluation.FailsWith

variable {blames blames' : Failure → Prop} {body : Evaluation α}

theorem mono (fails : body.FailsWith blames)
    (implies : ∀ failure, blames failure → blames' failure) : body.FailsWith blames' :=
  ⟨fun failed => implies _ (fails.blamed failed)⟩

theorem pure (result : α) : (Pure.pure result : Evaluation α).FailsWith blames := by
  refine ⟨fun {start last failure} failed => ?_⟩
  simp [Pure.pure, Evaluation.pure] at failed

theorem stop (reason : Stop) : (Evaluation.stop reason : Evaluation α).FailsWith blames := by
  refine ⟨fun {start last failure} failed => ?_⟩
  simp [Evaluation.stop] at failed

theorem read (view : State → α) : (Evaluation.read view).FailsWith blames := by
  refine ⟨fun {start last failure} failed => ?_⟩
  simp [Evaluation.read] at failed

theorem onHeap (action : Heap → α × Heap) : (Evaluation.onHeap action).FailsWith blames := by
  refine ⟨fun {start last failure} failed => ?_⟩
  simp [Evaluation.onHeap] at failed

theorem release (addresses : List Address) :
    (Evaluation.release addresses).FailsWith blames :=
  onHeap fun heap => ((), heap.releaseAll addresses)

theorem declare (name : Name) (value : Address) :
    (Evaluation.declare name value).FailsWith blames := by
  refine ⟨fun {start last failure} failed => ?_⟩
  simp [Evaluation.declare] at failed

theorem literal (names : Interner) (id : ExpressionId) (value : Literal) :
    (Evaluation.literal names id value).FailsWith blames := by
  refine ⟨fun {start last failure} failed => ?_⟩
  unfold Evaluation.literal at failed
  cases known : start.literal? id with
  | some address => simp [known, retain, Evaluation.onHeap] at failed
  | none => simp [known] at failed

theorem bind {next : α → Evaluation β} (fails : body.FailsWith blames)
    (rest : ∀ result, (next result).FailsWith blames) : (body >>= next).FailsWith blames := by
  refine ⟨fun {start last failure} failed => ?_⟩
  rw [bind_run] at failed
  cases outcome : body start with
  | value result middle =>
      rw [outcome] at failed
      exact (rest result).blamed failed
  | failure raised middle =>
      rw [outcome] at failed
      obtain ⟨rfl, _⟩ := Outcome.failure.inj failed
      exact fails.blamed outcome
  | stopped reason => simp [outcome] at failed

/-- What fails for every state that something is read off. -/
theorem reading {view : State → α} {next : α → Evaluation β}
    (fails : ∀ state, (next (view state)).FailsWith blames) :
    (Evaluation.read view >>= next).FailsWith blames :=
  ⟨fun {start _ _} failed => (fails start).blamed failed⟩

theorem ensuring (fails : body.FailsWith blames) (change : State → State) :
    (Evaluation.ensuring body change).FailsWith blames := by
  refine ⟨fun {start last failure} failed => ?_⟩
  obtain ⟨middle, broken, _⟩ := failure_ensuring failed
  exact fails.blamed broken

theorem holding (fails : body.FailsWith blames) (addresses : List Address) :
    (Evaluation.holding addresses body).FailsWith blames :=
  fails.ensuring _

theorem guarding (fails : body.FailsWith blames) (addresses : List Address) :
    (Evaluation.guarding addresses body).FailsWith blames := by
  refine ⟨fun {start last failure} failed => ?_⟩
  unfold Evaluation.guarding at failed
  cases outcome : body start with
  | value result middle => simp [outcome] at failed
  | failure raised middle =>
      simp only [outcome] at failed
      obtain ⟨rfl, _⟩ := Outcome.failure.inj failed
      exact fails.blamed outcome
  | stopped reason => simp [outcome] at failed

theorem inScope (fails : body.FailsWith blames) :
    (Evaluation.inScope body).FailsWith blames :=
  ⟨fun failed => (fails.ensuring _).blamed failed⟩

theorem inLoop (fails : body.FailsWith blames) : (Evaluation.inLoop body).FailsWith blames :=
  ⟨fun failed => (fails.ensuring _).blamed failed⟩

/-- Failures that are blamed on a span. -/
theorem located (fails : body.FailsWith blames) (span : Span)
    (claims : ∀ failure, blames failure → blames' (failure.locate span)) :
    (Evaluation.located span body).FailsWith blames' := by
  refine ⟨fun {start last failure} failed => ?_⟩
  obtain ⟨raised, broken, rfl⟩ := failure_located failed
  exact claims raised (fails.blamed broken)

theorem fail (cause : Cause) (blamed : blames (.of cause)) :
    (Evaluation.fail cause : Evaluation α).FailsWith blames := by
  refine ⟨fun {start last failure} failed => ?_⟩
  obtain ⟨rfl, _⟩ := Outcome.failure.inj failed
  exact blamed

theorem ofExcept (result : Except Cause α)
    (blamed : ∀ cause, result = .error cause → blames (.of cause)) :
    (Evaluation.ofExcept result).FailsWith blames := by
  cases result with
  | ok value => exact pure value
  | error cause => exact fail cause (blamed cause rfl)

theorem bindParameters (pairs : List (Parameter × Address)) :
    (Evaluation.bindParameters pairs).FailsWith blames := by
  induction pairs with
  | nil => exact pure ()
  | cons pair others induction => exact (declare pair.1.name pair.2).bind fun _ => induction

variable {nested : Nested}

/-- A list of statements fails only where one of them does. -/
theorem sequence {statements : List StatementId}
    (fails : ∀ id ∈ statements, (nested.execute id).FailsWith blames) :
    (Evaluation.sequence nested statements).FailsWith blames := by
  induction statements with
  | nil => exact pure ()
  | cons statement others induction =>
      obtain ⟨first, rest⟩ := List.forall_mem_cons.mp fails
      apply first.bind
      intro _
      apply (read _).bind
      intro signal
      cases signal with
      | true => exact pure ()
      | false => exact induction rest

theorem runBody {function : Function}
    (fails : ∀ id ∈ function.body.statements, (nested.execute id).FailsWith blames)
    (arguments : List Address) :
    (Evaluation.runBody nested function arguments).FailsWith blames :=
  ((bindParameters _).bind fun _ => sequence fails).inScope

end Evaluation.FailsWith

end ScriptEngine
