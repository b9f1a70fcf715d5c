import ScriptEngine.Proofs.Abreast.Triple
import ScriptEngine.Proofs.Isolation.Elevation

/-!
# Runs above callers

A state is lifted onto callers if their frames are put beneath its own and nothing else is
changed that can be noticed.  An evaluation lifts if, from a state and from the lifted
state, it does the same, except that the lifted run may exceed a limit on calls, which the
calls of the callers count towards.
-/

namespace ScriptEngine

/-- How many frames of each kind there are. -/
structure Height where
  scopes : Nat
  loops : Nat
  calls : Nat

namespace Height

/-- Within a body of a call. -/
def Inside (height : Height) : Prop :=
  0 < height.scopes ∧ 0 < height.calls

def inScope (height : Height) : Height :=
  { height with scopes := height.scopes + 1 }

def inLoop (height : Height) : Height :=
  { height with loops := height.loops + 1 }

def inCall (height : Height) : Height :=
  { height with calls := height.calls + 1 }

theorem Inside.inScope {height : Height} (inside : height.Inside) : height.inScope.Inside :=
  ⟨Nat.succ_pos _, inside.2⟩

theorem Inside.inLoop {height : Height} (inside : height.Inside) : height.inLoop.Inside :=
  inside

/-- A scope frame above a call frame. -/
theorem inside_inCall (height : Height) : height.inCall.inScope.Inside :=
  ⟨Nat.succ_pos _, Nat.succ_pos _⟩

end Height

def State.height (state : State) : Height :=
  ⟨state.scopes.nested.size, state.loops.depth, state.calls.depth⟩

namespace Callers

/-- The second state is the first one above the callers. -/
structure Lift (callers : Callers) (height : Height) (state lifted : State) : Prop where
  scopes : callers.LiftScopes state.scopes lifted.scopes
  loops : callers.LiftLoops state.loops lifted.loops
  calls : callers.LiftCalls state.calls lifted.calls
  heap : state.heap.Resembles lifted.heap
  literals : state.literals = lifted.literals
  output : state.output = lifted.output
  height : state.height = height

variable {callers : Callers} {height : Height} {state lifted : State}

namespace Lift

theorem scopes_pos (lift : callers.Lift height state lifted) (inside : height.Inside) :
    0 < state.scopes.nested.size := by
  have known : state.scopes.nested.size = height.scopes := congrArg Height.scopes lift.height
  rw [known]
  exact inside.1

theorem calls_pos (lift : callers.Lift height state lifted) (inside : height.Inside) :
    0 < state.calls.depth := by
  have known : state.calls.depth = height.calls := congrArg Height.calls lift.height
  rw [known]
  exact inside.2

theorem onHeap (lift : callers.Lift height state lifted) {heap other : Heap}
    (same : heap.Resembles other) :
    callers.Lift height { state with heap := heap } { lifted with heap := other } :=
  ⟨lift.scopes, lift.loops, lift.calls, same, lift.literals, lift.output, lift.height⟩

theorem releaseAll (lift : callers.Lift height state lifted) (addresses : List Address) :
    callers.Lift height (state.releaseAll addresses) (lifted.releaseAll addresses) :=
  lift.onHeap (lift.heap.releaseAll addresses)

theorem lookup? (lift : callers.Lift height state lifted) (inside : height.Inside) (name : Name) :
    lifted.lookup? name = state.lookup? name := by
  obtain ⟨floor, above⟩ := lift.calls.scopeFloor (lift.calls_pos inside)
  rw [State.lookup?, State.lookup?, floor, lift.scopes.lookup?_raise name above]

theorem resolve? (lift : callers.Lift height state lifted) (inside : height.Inside) (name : Name) :
    lifted.scopes.resolve? name lifted.calls.scopeFloor =
      (state.scopes.resolve? name state.calls.scopeFloor).map callers.raise := by
  obtain ⟨floor, above⟩ := lift.calls.scopeFloor (lift.calls_pos inside)
  rw [floor, lift.scopes.resolve?_raise name above]

theorem innermost? (lift : callers.Lift height state lifted) (inside : height.Inside) :
    lifted.loops.innermost? lifted.calls.loopBase =
      (state.loops.innermost? state.calls.loopBase).map callers.raiseLoop := by
  rw [lift.calls.loopBase (lift.calls_pos inside), lift.loops.innermost?]

theorem loopFinished (lift : callers.Lift height state lifted) (inside : height.Inside) :
    lifted.loopFinished = state.loopFinished := by
  rw [State.loopFinished, State.loopFinished, lift.innermost? inside,
    lift.calls.hasReturned (lift.calls_pos inside)]
  cases state.loops.innermost? state.calls.loopBase with
  | none => rfl
  | some frame => rfl

theorem hasSignal (lift : callers.Lift height state lifted) (inside : height.Inside) :
    lifted.hasSignal = state.hasSignal := by
  rw [State.hasSignal, State.hasSignal, lift.scopes.innermost (lift.scopes_pos inside),
    lift.loopFinished inside]

end Lift

end Callers

/-! ## Ends of two runs -/

/-- The same cause blamed on the same span. -/
structure Failure.Resembles (failure other : Failure) : Prop where
  cause : failure.cause = other.cause
  span : failure.span = other.span

/-- The limit on calls was exceeded. -/
def Failure.IsOverflow (failure : Failure) : Prop :=
  ∃ limit, failure.cause = .stackOverflow limit

theorem Failure.Resembles.locate {failure other : Failure} (same : failure.Resembles other)
    (span : Span) : (failure.locate span).Resembles (other.locate span) :=
  ⟨same.cause, congrArg (· <|> some span) same.span⟩

variable {α β γ δ : Type}

/-- The second run ends like the first, or by exceeding the limit on calls. -/
inductive Outcome.Lifts (view : α → β) (ended : State → State → Prop) :
    Outcome α → Outcome β → Prop where
  | value {result : α} {state state' : State} :
      ended state state' → Lifts view ended (.value result state) (.value (view result) state')
  | failure {failure failure' : Failure} {state state' : State} :
      failure.Resembles failure' → ended state state' →
        Lifts view ended (.failure failure state) (.failure failure' state')
  | stopped (reason : Stop) : Lifts view ended (.stopped reason) (.stopped reason)
  | overflow {outcome : Outcome α} {failure : Failure} {state : State} :
      failure.IsOverflow → Lifts view ended outcome (.failure failure state)

namespace Callers

/-- Two evaluations, the second above callers. -/
def Lifts (callers : Callers) (height : Height) (view : α → β) (body : Evaluation α)
    (other : Evaluation β) : Prop :=
  ∀ state lifted, callers.Lift height state lifted →
    Outcome.Lifts view (callers.Lift height) (body state) (other lifted)

/-- One evaluation, which gives the same above callers. -/
@[reducible] def Alike (callers : Callers) (height : Height) (body : Evaluation α) : Prop :=
  callers.Lifts height (fun result => result) body body

variable {callers : Callers} {height : Height} {view : α → β} {view' : γ → δ}
variable {body : Evaluation α} {other : Evaluation β}

namespace Lifts

theorem pure (result : α) : callers.Lifts height view (Pure.pure result) (Pure.pure (view result)) :=
  fun _ _ lift => .value lift

theorem fail (cause : Cause) :
    callers.Lifts height view (Evaluation.fail cause) (Evaluation.fail cause) :=
  fun _ _ lift => .failure ⟨rfl, rfl⟩ lift

theorem stop (reason : Stop) :
    callers.Lifts height view (Evaluation.stop reason) (Evaluation.stop reason) :=
  fun _ _ _ => .stopped reason

theorem bind {next : α → Evaluation γ} {next' : β → Evaluation δ}
    (first : callers.Lifts height view body other)
    (rest : ∀ result, callers.Lifts height view' (next result) (next' (view result))) :
    callers.Lifts height view' (body >>= next) (other >>= next') := by
  intro state lifted lift
  rw [Evaluation.bind_run, Evaluation.bind_run]
  have ended := first state lifted lift
  generalize body state = one, other lifted = another at ended ⊢
  cases ended with
  | value lift => exact rest _ _ _ lift
  | failure same lift => exact .failure same lift
  | stopped reason => exact .stopped reason
  | overflow exceeds => exact .overflow exceeds

theorem located (span : Span) (lifts : callers.Lifts height view body other) :
    callers.Lifts height view (Evaluation.located span body) (Evaluation.located span other) := by
  intro state lifted lift
  unfold Evaluation.located
  have ended := lifts state lifted lift
  generalize body state = one, other lifted = another at ended ⊢
  cases ended with
  | value lift => exact .value lift
  | failure same lift => exact .failure (same.locate span) lift
  | stopped reason => exact .stopped reason
  | overflow exceeds => exact .overflow exceeds

/-- What is done however the evaluations end, from wherever they were started. -/
theorem ensuring {inner : Height} {enter enter' change change' : State → State}
    (lifts : callers.Lifts inner view body other)
    (starts : ∀ {state lifted}, callers.Lift height state lifted →
      callers.Lift inner (enter state) (enter' lifted))
    (ends : ∀ {state lifted}, callers.Lift inner state lifted →
      callers.Lift height (change state) (change' lifted)) :
    callers.Lifts height view (fun state => Evaluation.ensuring body change (enter state))
      (fun state => Evaluation.ensuring other change' (enter' state)) := by
  intro state lifted lift
  unfold Evaluation.ensuring
  dsimp only
  have ended := lifts _ _ (starts lift)
  generalize body (enter state) = one, other (enter' lifted) = another at ended ⊢
  cases ended with
  | value lift => exact .value (ends lift)
  | failure same lift => exact .failure same (ends lift)
  | stopped reason => exact .stopped reason
  | overflow exceeds => exact .overflow exceeds

theorem holding (addresses : List Address) (lifts : callers.Lifts height view body other) :
    callers.Lifts height view (Evaluation.holding addresses body)
      (Evaluation.holding addresses other) :=
  @ensuring _ _ callers height view body other height id id _ _ lifts (fun lift => lift)
    fun lift => lift.releaseAll addresses

theorem guarding (addresses : List Address) (lifts : callers.Lifts height view body other) :
    callers.Lifts height view (Evaluation.guarding addresses body)
      (Evaluation.guarding addresses other) := by
  intro state lifted lift
  unfold Evaluation.guarding
  have ended := lifts state lifted lift
  generalize body state = one, other lifted = another at ended ⊢
  cases ended with
  | value lift => exact .value lift
  | failure same lift => exact .failure same (lift.releaseAll addresses)
  | stopped reason => exact .stopped reason
  | overflow exceeds => exact .overflow exceeds

theorem readRaised {look : State → α} {look' : State → β}
    (same : ∀ {state lifted}, callers.Lift height state lifted → look' lifted = view (look state)) :
    callers.Lifts height view (Evaluation.read look) (Evaluation.read look') := by
  intro state lifted lift
  simp only [Evaluation.read, same lift]
  exact .value lift

/-- Something that looks alike above callers. -/
theorem read {look : State → α}
    (same : ∀ {state lifted}, callers.Lift height state lifted → look state = look lifted) :
    callers.Alike height (Evaluation.read look) :=
  readRaised fun lift => (same lift).symm

theorem update {change change' : State → State}
    (changes : ∀ {state lifted}, callers.Lift height state lifted →
      callers.Lift height (change state) (change' lifted)) :
    callers.Lifts height (fun result => result) (Evaluation.update change)
      (Evaluation.update change') :=
  fun _ _ lift => .value (changes lift)

theorem release (addresses : List Address) :
    callers.Alike height (Evaluation.release addresses) :=
  update fun lift => lift.releaseAll addresses

/-- A result that is given for both. -/
theorem ofExcept (result : Except Cause α) :
    callers.Alike height (Evaluation.ofExcept result) := by
  cases result with
  | ok value => exact pure value
  | error cause => exact fail cause

/-- What is done to the heap does not depend on what cannot be read. -/
theorem onHeap {action : Heap → α × Heap}
    (coincide : ∀ {heap other : Heap}, heap.Resembles other →
      Heap.Coincide (action heap) (action other)) :
    callers.Alike height (Evaluation.onHeap action) := by
  intro state lifted lift
  obtain ⟨result, same⟩ := coincide lift.heap
  unfold Evaluation.onHeap State.onHeap
  dsimp only
  rw [result]
  exact .value (lift.onHeap same)

theorem newScalar (value : Scalar) :
    callers.Alike height (Evaluation.newScalar value) :=
  onHeap fun same => same.newScalar value

theorem copy (address : Address) :
    callers.Alike height (Evaluation.copy address) :=
  onHeap fun same => same.copy address

theorem retain (address : Address) :
    callers.Alike height (Evaluation.retain address) :=
  onHeap fun same => ⟨rfl, same.retain address⟩

end Lifts

end Callers

end ScriptEngine
