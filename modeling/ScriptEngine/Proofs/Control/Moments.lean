import ScriptEngine.Proofs.Control.Approximation
import ScriptEngine.Proofs.Custody.Builtins
import ScriptEngine.Proofs.Ownership.Development

/-!
# Moments in turn

A run can be stopped at one moment, or go on to a later one.  Whatever stops at
the earlier moment does before it what the run does that goes on, and everything
that the latter does then lets the heap develop.  So the heap of the later moment
has developed from that of the earlier one.
-/

namespace ScriptEngine

open Evaluation

variable {α β : Type} {careless : Prop} {setup : Setup}

/-! ## What evaluations do to the heap -/

namespace Heap

/-- Whatever evaluations do to the heap alone lets it develop. -/
theorem Act.develops {action : Heap → α × Heap} (act : Act action) (heap : Heap) :
    heap.Develops careless (action heap).2 := by
  cases act with
  | releaseAll addresses => exact (Remains.releaseAll heap addresses).develops
  | retain address => exact (Remains.retain heap address).develops
  | newScalar value => exact (Fashioned.newScalar heap value).develops
  | newDefault type => exact (Fashioned.newDefault heap type).develops
  | newVector element elements => exact (Fashioned.newVector heap element elements).develops
  | newDict key value pairs => exact (Fashioned.newDict heap key value pairs).develops
  | copy address => exact (Fashioned.copy heap address).develops
  | readElement container key => exact .readElement heap container key
  | locate container key => exact .locate heap container key .write
  | next? items => exact .next? items heap

end Heap

/-- Whatever a call of a built-in function leaves behind has developed. -/
theorem Heap.Develops.of_abides {result : BuiltinResult} {arguments : List Address} {heap : Heap}
    (abides : result.Abides careless arguments heap) : heap.Develops careless result.heap := by
  obtain ⟨value, after, output⟩ := result
  cases value with
  | error failure => exact Makes.develops abides
  | ok value =>
      rcases abides with makes | ⟨_, same⟩
      · exact makes.develops
      · rw [show after = heap.retain value from same]
        exact (Remains.retain heap value).develops

/-! ## Evaluations that go on -/

/-- The heap that is left has developed from the first one, and where an observer
has interrupted the evaluation the second one has. -/
def Outcome.DevelopsFrom (careless : Prop) (origin target : Heap) : Outcome α → Prop
  | .value _ last => origin.Develops careless last.heap
  | .failure _ last => origin.Develops careless last.heap
  | .stopped reason => reason = .interrupted → origin.Develops careless target

/-- An evaluation ends as a shorter one does, or comes past the place where the
shorter one is interrupted. -/
def Outcome.Passes (careless : Prop) (origin target : Heap) (longer : Outcome α) :
    Outcome α → Prop
  | .stopped reason => reason = .interrupted → longer.DevelopsFrom careless origin target
  | ended => longer = ended

/-- The heap that is left has developed, and nothing has interrupted the evaluation. -/
def Outcome.Leaves (careless : Prop) (origin : Heap) : Outcome α → Prop
  | .value _ last => origin.Develops careless last.heap
  | .failure _ last => origin.Develops careless last.heap
  | .stopped reason => reason ≠ .interrupted

theorem Outcome.DevelopsFrom.after {origin middle target : Heap} {outcome : Outcome α}
    (develops : outcome.DevelopsFrom careless middle target)
    (before : origin.Develops careless middle) : outcome.DevelopsFrom careless origin target := by
  cases outcome with
  | value result last => exact before.trans develops
  | failure failure last => exact before.trans develops
  | stopped reason => exact fun interrupted => before.trans (develops interrupted)

namespace Evaluation

/-- Everything that an evaluation does lets the heap develop, up to where an
observer interrupts it. -/
def Develops (careless : Prop) (target : Heap) (body : Evaluation α) : Prop :=
  ∀ state, (body state).DevelopsFrom careless state.heap target

/-- What an evaluation does that goes on where a shorter one is interrupted. -/
structure Passes (careless : Prop) (origin target : Heap) (longer shorter : Evaluation α) :
    Prop where
  develops : longer.Develops careless target
  passes : ∀ state, (longer state).Passes careless origin target (shorter state)

section

variable (body : Evaluation α)

theorem bind_eq_finish (next : α → Evaluation β) : body >>= next = body.finish next raise := by
  funext state
  rw [bind_run, finish]
  cases body state with
  | value result last => rfl
  | failure failure last => rfl
  | stopped reason => rfl

theorem located_eq_finish (span : Span) :
    located span body = body.finish pure fun failure => raise (failure.locate span) := by
  funext state
  rw [located, finish]
  cases body state with
  | value result last => rfl
  | failure failure last => rfl
  | stopped reason => rfl

theorem ensuring_eq_finish (change : State → State) :
    ensuring body change =
      body.finish (fun result => update change >>= fun _ => pure result)
        fun failure => update change >>= fun _ => raise failure := by
  funext state
  rw [ensuring, finish]
  cases body state with
  | value result last => rfl
  | failure failure last => rfl
  | stopped reason => rfl

theorem guarding_eq_finish (addresses : List Address) :
    guarding addresses body =
      body.finish pure fun failure => release addresses >>= fun _ => raise failure := by
  funext state
  rw [guarding, finish]
  cases body state with
  | value result last => rfl
  | failure failure last => rfl
  | stopped reason => rfl

theorem runCall_eq_finish (nested : Nested) (function : Function) (arguments : List Address) :
    runCall setup nested function arguments =
      (runBody nested function arguments).finish (fun _ => popCall) (abandonCall setup) := by
  funext state
  rw [runCall, finish]
  cases runBody nested function arguments state with
  | value result last => rfl
  | failure failure last => rfl
  | stopped reason => rfl

end

variable {origin target : Heap} {body longer shorter : Evaluation α}

/-- Where an evaluation ends, what is done next goes on from there. -/
theorem developsFrom_finish {next : α → Evaluation β} {failed : Failure → Evaluation β}
    {state : State} (develops : (body state).DevelopsFrom careless origin target)
    (rest : ∀ result, body.Gives result → (next result).Develops careless target)
    (fails : ∀ failure, (failed failure).Develops careless target) :
    (body.finish next failed state).DevelopsFrom careless origin target := by
  rw [finish]
  cases outcome : body state with
  | value result last =>
      rw [outcome] at develops
      exact (rest result ⟨state, last, outcome⟩ last).after develops
  | failure failure last =>
      rw [outcome] at develops
      exact (fails failure last).after develops
  | stopped reason =>
      rw [outcome] at develops
      exact develops

namespace Passes

/-- An evaluation that no observer interrupts. -/
theorem same (leaves : ∀ state, (body state).Leaves careless state.heap) :
    body.Passes careless origin target body := by
  constructor
  · intro state
    have left := leaves state
    cases outcome : body state with
    | value result last =>
        rw [outcome] at left
        exact left
    | failure failure last =>
        rw [outcome] at left
        exact left
    | stopped reason =>
        rw [outcome] at left
        exact fun interrupted => absurd interrupted left
  · intro state
    have left := leaves state
    cases outcome : body state with
    | value result last => rfl
    | failure failure last => rfl
    | stopped reason =>
        rw [outcome] at left
        exact fun interrupted => absurd interrupted left

theorem raise (failure : Failure) :
    (Evaluation.raise failure : Evaluation α).Passes careless origin target
      (Evaluation.raise failure) :=
  same fun state => .refl state.heap

theorem pure (result : α) :
    (Pure.pure result : Evaluation α).Passes careless origin target (Pure.pure result) :=
  same fun state => .refl state.heap

/-- What is done next passes if it passes where the longer evaluation can end. -/
theorem finish {next next' : α → Evaluation β} {failed failed' : Failure → Evaluation β}
    (passes : longer.Passes careless origin target shorter)
    (rest : ∀ result, longer.Gives result →
      (next result).Passes careless origin target (next' result))
    (fails : ∀ failure, (failed failure).Passes careless origin target (failed' failure)) :
    (longer.finish next failed).Passes careless origin target (shorter.finish next' failed') := by
  have develops : ∀ {state : State} {source : Heap},
      (longer state).DevelopsFrom careless source target →
        (longer.finish next failed state).DevelopsFrom careless source target :=
    fun ended => developsFrom_finish ended (fun result given => (rest result given).develops)
      fun failure => (fails failure).develops
  refine ⟨fun state => develops (passes.develops state), fun state => ?_⟩
  have passed := passes.passes state
  rw [Evaluation.finish.eq_def shorter]
  cases outcome : shorter state with
  | value result last =>
      rw [outcome] at passed
      rw [Evaluation.finish, show longer state = .value result last from passed]
      exact (rest result ⟨state, last, passed⟩).passes last
  | failure failure last =>
      rw [outcome] at passed
      rw [Evaluation.finish, show longer state = .failure failure last from passed]
      exact (fails failure).passes last
  | stopped reason =>
      rw [outcome] at passed
      exact fun interrupted => develops (passed interrupted)

theorem bind {next next' : α → Evaluation β} (passes : longer.Passes careless origin target shorter)
    (rest : ∀ result, longer.Gives result →
      (next result).Passes careless origin target (next' result)) :
    (longer >>= next).Passes careless origin target (shorter >>= next') := by
  rw [bind_eq_finish, bind_eq_finish]
  exact passes.finish rest .raise

theorem update {change : State → State}
    (changes : ∀ state : State, state.heap.Develops careless (change state).heap) :
    (Evaluation.update change).Passes careless origin target (Evaluation.update change) :=
  same changes

theorem release (addresses : List Address) :
    (Evaluation.release addresses).Passes careless origin target (Evaluation.release addresses) :=
  .update fun state => (Heap.Remains.releaseAll state.heap addresses).develops

section

variable (passes : longer.Passes careless origin target shorter)
include passes

theorem located (span : Span) :
    (Evaluation.located span longer).Passes careless origin target
      (Evaluation.located span shorter) := by
  rw [located_eq_finish, located_eq_finish]
  exact passes.finish (fun result _ => .pure result) fun failure => .raise (failure.locate span)

theorem ensuring (change : State → State)
    (changes : ∀ state : State, state.heap.Develops careless (change state).heap) :
    (Evaluation.ensuring longer change).Passes careless origin target
      (Evaluation.ensuring shorter change) := by
  rw [ensuring_eq_finish, ensuring_eq_finish]
  apply passes.finish
  · intro result _
    exact (Passes.update changes).bind fun _ _ => .pure result
  · intro failure
    exact (Passes.update changes).bind fun _ _ => .raise failure

theorem guarding (addresses : List Address) :
    (Evaluation.guarding addresses longer).Passes careless origin target
      (Evaluation.guarding addresses shorter) := by
  rw [guarding_eq_finish, guarding_eq_finish]
  apply passes.finish
  · intro result _
    exact .pure result
  · intro failure
    exact (Passes.release addresses).bind fun _ _ => .raise failure

/-- An evaluation that begins with a change that leaves the heap alone. -/
theorem after (change : State → State) (alone : ∀ state, (change state).heap = state.heap) :
    Passes careless origin target (fun state => longer (change state))
      (fun state => shorter (change state)) := by
  constructor
  · intro state
    have developed := passes.develops (change state)
    rwa [alone] at developed
  · exact fun state => passes.passes (change state)

theorem inScope :
    (Evaluation.inScope longer).Passes careless origin target (Evaluation.inScope shorter) := by
  have popped := passes.ensuring
    (fun state => (state.onStorage fun scopes heap => ((), scopes.pop heap)).2)
    fun state => .pop state.scopes state.heap
  exact popped.after (fun state => { state with scopes := state.scopes.push }) fun _ => rfl

theorem inLoop :
    (Evaluation.inLoop longer).Passes careless origin target (Evaluation.inLoop shorter) := by
  have popped := passes.ensuring (fun state => { state with loops := state.loops.pop })
    fun state => .refl state.heap
  exact popped.after (fun state =>
    { state with loops := state.loops.push { scopeDepth := state.scopes.depth } }) fun _ => rfl

end

/-! ## What evaluations are made of -/

theorem stop {reason : Stop} (other : reason ≠ .interrupted) :
    (Evaluation.stop reason : Evaluation α).Passes careless origin target
      (Evaluation.stop reason) :=
  same fun _ => other

theorem onHeap {action : Heap → α × Heap} (act : Heap.Act action) :
    (Evaluation.onHeap action).Passes careless origin target (Evaluation.onHeap action) :=
  same fun state => act.develops state.heap

theorem literal (names : Interner) (id : ExpressionId) (value : Literal) :
    (Evaluation.literal names id value).Passes careless origin target
      (Evaluation.literal names id value) := by
  apply same
  intro state
  rw [Evaluation.literal]
  cases state.literal? id with
  | some address => exact (Heap.Remains.retain state.heap address).develops
  | none =>
      exact (Heap.Fashioned.newScalar state.heap (value.scalar names)).develops.trans
        (Heap.Remains.retain _ _).develops

theorem invokeBuiltin {builtin : Builtin} (abides : builtin.Abides careless)
    (arguments : List Address) :
    (Evaluation.invokeBuiltin builtin arguments).Passes careless origin target
      (Evaluation.invokeBuiltin builtin arguments) := by
  apply same
  intro state
  have developed := Heap.Develops.of_abides
    (Builtin.invoke_abides abides arguments state.heap state.output)
  rw [Evaluation.invokeBuiltin]
  cases (builtin.invoke arguments state.heap state.output).value with
  | ok value => exact developed
  | error failure => exact developed

theorem breakLoop :
    Evaluation.breakLoop.Passes careless origin target Evaluation.breakLoop := by
  apply same
  intro state
  rw [Evaluation.breakLoop]
  cases state.loops.break? state.calls.loopBase with
  | some loops => exact .refl state.heap
  | none => exact .refl state.heap

theorem continueLoop :
    Evaluation.continueLoop.Passes careless origin target Evaluation.continueLoop := by
  apply same
  intro state
  rw [Evaluation.continueLoop]
  cases state.loops.innermost? state.calls.loopBase with
  | some frame => exact .refl state.heap
  | none => exact .refl state.heap

theorem setResult (value : Address) :
    (Evaluation.setResult value).Passes careless origin target (Evaluation.setResult value) := by
  apply same
  intro state
  rw [Evaluation.setResult]
  cases state.calls.current? with
  | some frame => exact .setResult frame state.heap value
  | none => exact .refl state.heap

theorem popCall : Evaluation.popCall.Passes careless origin target Evaluation.popCall := by
  apply same
  intro state
  rw [Evaluation.popCall]
  cases state.calls.current? with
  | some frame => exact .takeResult frame state.heap
  | none => exact .refl state.heap

theorem abandonCall (failure : Failure) :
    (Evaluation.abandonCall setup failure : Evaluation α).Passes careless origin target
      (Evaluation.abandonCall setup failure) := by
  apply same
  intro state
  rw [Evaluation.abandonCall]
  cases state.calls.current? with
  | some frame => exact .discard frame state.heap
  | none => exact .refl state.heap

theorem enterCall (function : Function) (callSite : Span) :
    (Evaluation.enterCall setup function callSite).Passes careless origin target
      (Evaluation.enterCall setup function callSite) := by
  apply same
  intro state
  rw [Evaluation.enterCall]
  cases state.calls.exceeded? with
  | some limit => exact .refl state.heap
  | none => exact .refl state.heap

end Passes

end Evaluation

/-- Evaluations that go on where others are interrupted, with built-in functions
that abide by what is allowed. -/
def Coupling.passing (abides : setup.builtins.Abides careless) (origin target : Heap) :
    Coupling setup where
  relates _ := Evaluation.Passes careless origin target
  curtails := False
  widen passes := passes
  loosen passes := passes
  pure := .pure
  fail cause _ := .raise (.of cause)
  stop := .stop
  exhausted _ never := never.elim
  read _ _ := .same fun state => .refl state.heap
  onHeap := .onHeap
  literal := .literal setup.program.names
  store place value := .same fun state => .store place state.scopes state.heap value
  builtin arguments found := .invokeBuiltin (abides.of_get? found) arguments
  declare name value := .same fun state => .declare state.scopes state.heap name value
  breakLoop := .breakLoop
  continueLoop := .continueLoop
  setResult := .setResult
  bind := .bind
  located span passes := passes.located span
  holding addresses passes := passes.ensuring _ fun state =>
    (Heap.Remains.releaseAll state.heap addresses).develops
  guarding addresses passes := passes.guarding addresses
  inScope := .inScope
  inLoop := .inLoop
  call function arguments callSite passes := by
    apply ((Evaluation.Passes.enterCall function callSite).guarding arguments).bind
    intro _ _
    rw [runCall_eq_finish, runCall_eq_finish]
    exact passes.finish (fun _ _ => .popCall) .abandonCall

/-! ## Where evaluations halt -/

open Classical in
/-- An observer that waits for one moment, and gives up where another one comes
before it. -/
noncomputable def Halt.awaiting (first later : State) : Halt :=
  fun state =>
    if state = first then some .interrupted
    else if state = later then some .outOfFuel
    else none

/-- The shorter evaluations halt wherever the longer ones do, and where either of
them are interrupted the heap is a certain one. -/
structure Halt.Precedes (origin target : Heap) (shorter longer : Halt) : Prop where
  earlier : ∀ state, shorter state = none → longer state = none
  origin : ∀ state, shorter state = some .interrupted → state.heap = origin
  target : ∀ state, longer state = some .interrupted → state.heap = target

namespace Halt.Precedes

variable {first later : State} {allowed : State → Prop} {target : Heap}

/-- An observer of one moment halts before those that allow every other one. -/
theorem allowing (allows : ∀ state, state ≠ first → allowed state)
    (only : ∀ state, ¬ allowed state → state.heap = target) :
    (Halt.allowing (· ≠ first)).Precedes first.heap target (.allowing allowed) := by
  constructor
  · intro state passed
    by_cases here : state = first
    · simp [Halt.allowing, here] at passed
    · exact if_pos (allows state here)
  · intro state halted
    by_cases here : state = first
    · rw [here]
    · simp [Halt.allowing, here] at halted
  · intro state halted
    by_cases fine : allowed state
    · simp [Halt.allowing, fine] at halted
    · exact only state fine

/-- An observer that waits for a moment halts there before another one does later. -/
theorem awaiting : (Halt.awaiting first later).Precedes first.heap later.heap
    (.allowing (· ≠ later)) := by
  constructor
  · intro state passed
    by_cases here : state = first
    · simp [Halt.awaiting, here] at passed
    · by_cases there : state = later
      · simp [Halt.awaiting, here, if_pos there] at passed
      · exact if_pos there
  · intro state halted
    by_cases here : state = first
    · rw [here]
    · by_cases there : state = later
      · simp [Halt.awaiting, if_neg here, if_pos there] at halted
      · simp [Halt.awaiting, here, there] at halted
  · intro state halted
    by_cases here : state = later
    · rw [here]
    · simp [Halt.allowing, here] at halted

end Halt.Precedes

namespace Evaluation.Passes

variable {origin target : Heap} {longer shorter : Evaluation α} {halt halt' : Halt}
  (precedes : halt'.Precedes origin target halt)
include precedes

theorem gated (passes : longer.Passes careless origin target shorter) :
    (Evaluation.gated halt longer).Passes careless origin target
      (Evaluation.gated halt' shorter) := by
  have develops : (Evaluation.gated halt longer).Develops careless target := by
    intro state
    rw [Evaluation.gated]
    cases halted : halt state with
    | none => exact passes.develops state
    | some reason =>
        intro interrupted
        subst interrupted
        rw [precedes.target state halted]
        exact .refl target
  refine ⟨develops, fun state => ?_⟩
  rw [Evaluation.gated.eq_def halt' shorter]
  cases halted : halt' state with
  | none =>
      rw [Evaluation.gated, precedes.earlier state halted]
      exact passes.passes state
  | some reason =>
      intro interrupted
      subst interrupted
      rw [← precedes.origin state halted]
      exact develops state

theorem heeding (passes : longer.Passes careless origin target shorter) :
    (Evaluation.heeding halt longer).Passes careless origin target
      (Evaluation.heeding halt' shorter) := by
  apply gated precedes
  apply passes.finish
  · exact fun result _ => gated precedes (.pure result)
  · exact fun failure => gated precedes (.raise failure)

end Evaluation.Passes

namespace Nested

section

variable {origin target : Heap} {halt halt' : Halt} (precedes : halt'.Precedes origin target halt)
  (abides : setup.builtins.Abides careless)
include precedes

theorem heeding_passes {longer shorter : Nested}
    (passes : longer.Related (.passing abides origin target) shorter) :
    (heeding halt longer).Related (.passing abides origin target) (heeding halt' shorter) where
  operands :=
    { evaluate := fun id => .heeding precedes (passes.operands.evaluate id)
      share := fun id => .heeding precedes (passes.operands.share id)
      target := fun id => .heeding precedes (passes.operands.target id) }
  execute id := .heeding precedes (passes.execute id)
  iterations := passes.iterations

/-- An evaluator passes one that halts at least where it does. -/
theorem heeded_passes (fuel : Nat) :
    (heeded setup halt fuel).Related (.passing abides origin target)
      (heeded setup halt' fuel) := by
  induction fuel with
  | zero =>
      exact ⟨⟨fun _ => .outOfFuel, fun _ => .outOfFuel, fun _ => .outOfFuel⟩, fun _ => .outOfFuel,
        Or.inl rfl⟩
  | succ fuel induction =>
      rw [heeded, heeded]
      exact heeding_passes precedes abides (induction.layer (Or.inl rfl))

end

end Nested

end ScriptEngine
