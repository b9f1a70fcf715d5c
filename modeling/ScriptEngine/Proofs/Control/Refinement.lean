import ScriptEngine.Proofs.Control.Steady

/-!
# Flags refine structured control flow

A run that signals completions through flags does exactly what the structured
semantics does, and leaves the flag of the completion raised.
-/

namespace ScriptEngine

open Evaluation

/-- The outcome with its completion signalled, and something else as its
value. -/
def Outcome.signalled {α : Type} (view : Completion → α) : Outcome Completion → Outcome α
  | .value completion state => .value (view completion) (state.raise completion)
  | .failure cause state => .failure cause state
  | .stopped reason => .stopped reason

/-- From states of a kind, an evaluation does what a structured one does and
signals its completion. -/
def Evaluation.Signals {α : Type} (body : Evaluation α) (view : Completion → α)
    (kind : State → Prop) (structured : Evaluation Completion) : Prop :=
  ∀ state, kind state → body state = (structured state).signalled view

/-- A statement gives nothing but a signal. -/
def Evaluation.Refines (body : Evaluation Unit) (kind : State → Prop)
    (structured : Evaluation Completion) : Prop :=
  body.Signals (fun _ => ()) kind structured

structure Nested.Refines (nested : Nested) (structured : Structured) : Prop where
  operands : nested.toOperands = structured.toOperands
  iterations : nested.iterations = structured.iterations
  execute : ∀ id, (nested.execute id).Refines State.Ready (structured.execute id)

/-- A kind of states that only the control flow decides. -/
def State.Controlled (kind : State → Prop) : Prop :=
  ∀ {before after : State}, before.SameControl after → kind before → kind after

namespace Evaluation

variable {α β : Type} {kind : State → Prop} {view : Completion → α}
  {structured : Evaluation Completion}

namespace Signals

variable {body : Evaluation α}

theorem located (signals : body.Signals view kind structured) (span : Span) :
    (Evaluation.located span body).Signals view kind (Evaluation.located span structured) := by
  intro state holds
  unfold Evaluation.located
  rw [signals state holds]
  cases structured state with
  | value completion state => rfl
  | failure failure state => rfl
  | stopped reason => rfl

theorem after {action : Evaluation β} {next : β → Evaluation α}
    {nextStructured : β → Evaluation Completion} (controlled : State.Controlled kind)
    (steady : ∀ start : State, Triple start.SameControl action (fun _ => start.SameControl)
      start.SameControl)
    (signals : ∀ result, (next result).Signals view kind (nextStructured result)) :
    (action >>= next).Signals view kind (action >>= nextStructured) := by
  intro state holds
  have ended := steady state state (State.SameControl.refl state)
  rw [bind_run, bind_run]
  cases outcome : action state with
  | value result middle =>
      rw [outcome] at ended
      exact signals result middle (controlled ended holds)
  | failure failure middle => rfl
  | stopped reason => rfl

theorem inScope (signals : body.Signals view State.Ready structured) :
    (Evaluation.inScope body).Signals view State.Calm (Evaluation.inScope structured) := by
  intro state calm
  unfold Evaluation.inScope ensuring
  rw [signals _ calm.pushScope]
  cases structured { state with scopes := state.scopes.push } with
  | value completion state =>
      simp only [Outcome.signalled]
      rw [State.raise_popScope]
  | failure failure state => rfl
  | stopped reason => rfl

end Signals

namespace Refines

variable {body : Evaluation Unit}

theorem normal : (Pure.pure () : Evaluation Unit).Refines kind (Pure.pure .normal) :=
  fun _ _ => rfl

theorem fail (cause : Cause) :
    (Evaluation.fail cause : Evaluation Unit).Refines kind (Evaluation.fail cause) :=
  fun _ _ => rfl

theorem outOfFuel :
    (Evaluation.stop .outOfFuel : Evaluation Unit).Refines kind (Evaluation.stop .outOfFuel) :=
  fun _ _ => rfl

theorem holding (refines : body.Refines kind structured) (addresses : List Address) :
    (Evaluation.holding addresses body).Refines kind
      (Evaluation.holding addresses structured) := by
  intro state holds
  unfold Evaluation.holding ensuring
  rw [refines state holds]
  cases structured state with
  | value completion state =>
      simp only [Outcome.signalled, State.releaseAll_eq]
      rw [State.raise_onHeap (·.releaseAll addresses)]
  | failure failure state => rfl
  | stopped reason => rfl

theorem loop (completes : structured.Completes)
    (refines : body.Refines State.Circling structured) :
    (inLoop body).Refines State.Calm (Structured.loop structured) := by
  intro state calm
  have pushed := calm.pushLoop
  have ended := completes _ _ (State.SameControl.refl
    { state with loops := state.loops.push { scopeDepth := state.scopes.depth } })
  unfold Structured.loop
  rw [bind_run]
  unfold inLoop ensuring
  rw [refines _ pushed]
  cases outcome : structured
      { state with loops := state.loops.push { scopeDepth := state.scopes.depth } } with
  | value completion after =>
      rw [outcome] at ended
      have circling := ended.1.circling pushed
      simp only [Outcome.signalled]
      rw [State.raise_popLoop circling]
      rfl
  | failure failure after => rfl
  | stopped reason => rfl

end Refines

end Evaluation

namespace State

theorem ready_controlled : Controlled Ready := fun same holds => same.ready holds

theorem circling_controlled : Controlled Circling := fun same holds => same.circling holds

end State

namespace Nested.Refines

variable {setup : Setup} {nested : Nested} {structured : Structured}

/-! ## Statement lists and blocks -/

theorem sequence (steady : structured.Steady) (refines : nested.Refines structured)
    (statements : List StatementId) :
    (Evaluation.sequence nested statements).Refines State.Ready
      (Structured.sequence structured statements) := by
  induction statements with
  | nil => exact Evaluation.Refines.normal
  | cons statement others induction =>
      intro state ready
      have ended := steady.execute statement state state (State.SameControl.refl state)
      rw [Evaluation.sequence, Structured.sequence, bind_run, bind_run,
        refines.execute statement state ready]
      cases outcome : structured.execute statement state with
      | value completion middle =>
          rw [outcome] at ended
          have still := ended.1.ready ready
          have signal := still.hasSignal_raise (ended.1.possible ended.2)
          simp only [Outcome.signalled, bind_run, Evaluation.read, signal]
          cases completion with
          | normal => exact induction middle still
          | broken => rfl
          | continued => rfl
          | returned value => rfl
      | failure failure middle => rfl
      | stopped reason => rfl

theorem block (steady : structured.Steady) (refines : nested.Refines structured)
    (body : Block) :
    (Evaluation.block nested body).Refines State.Ready (Structured.block structured body) := by
  intro state ready
  exact Signals.inScope (refines.sequence steady body.statements) state ready.toCalm

/-! ## Loops -/

theorem iteration (steady : structured.Steady) (refines : nested.Refines structured)
    (binding : Option (Name × Address)) (body : Block) :
    (Evaluation.iteration nested binding body).Signals Completion.goesOn State.Calm
      (Structured.iteration structured binding body) := by
  apply Signals.inScope
  have rest : (do
      Evaluation.sequence nested body.statements
      Evaluation.read (!·.loopFinished)).Signals Completion.goesOn State.Ready
        (Structured.sequence structured body.statements) := by
    intro state ready
    have ended := Structured.sequence_completes steady body.statements state state
      (State.SameControl.refl state)
    rw [bind_run, refines.sequence steady body.statements state ready]
    cases outcome : Structured.sequence structured body.statements state with
    | value completion middle =>
        rw [outcome] at ended
        have still := ended.1.calm ready.toCalm
        simp only [Outcome.signalled, Evaluation.read,
          still.loopFinished_raise (ended.1.possible ended.2), Bool.not_not]
    | failure failure middle => rfl
    | stopped reason => rfl
  cases binding with
  | none => exact rest
  | some pair =>
      obtain ⟨name, value⟩ := pair
      exact Signals.after State.ready_controlled (Structured.declare_steady name value)
        fun _ => rest

/-- A driver that stops after an iteration, or goes on. -/
theorem round {iteration : Evaluation Bool} {next : Evaluation Unit}
    {iteration' next' : Evaluation Completion} (completes : iteration'.Completes)
    (signals : iteration.Signals Completion.goesOn State.Calm iteration')
    (refines : next.Refines State.Circling next') :
    (do if ← iteration then next else pure ()).Refines State.Circling
      (do
        let completion ← iteration'
        if completion.goesOn then next' else pure completion) := by
  intro state circling
  have ended := completes state state (State.SameControl.refl state)
  rw [bind_run, bind_run, signals state circling.toCalm]
  cases outcome : iteration' state with
  | value completion middle =>
      rw [outcome] at ended
      have still := ended.1.circling circling
      cases completion with
      | normal => exact refines middle still
      | broken => rfl
      | continued =>
          simp only [Outcome.signalled, still.raise_continued]
          exact refines middle still
      | returned value => rfl
  | failure failure middle => rfl
  | stopped reason => rfl

theorem forEachFrom (steady : structured.Steady) (refines : nested.Refines structured)
    (name : Name) (body : Block) (count : Nat) (items : Items) :
    (Evaluation.forEachFrom nested name body count items).Refines State.Circling
      (Structured.forEachFrom structured name body count items) := by
  induction count generalizing items with
  | zero => exact Evaluation.Refines.outOfFuel
  | succ count induction =>
      apply Signals.after State.circling_controlled
      · intro start state same
        exact same.onHeap _
      · intro item?
        cases item? with
        | none => exact Evaluation.Refines.normal
        | some item =>
            exact round (Structured.iteration_completes steady _ body)
              (refines.iteration steady (some (name, item.1)) body) (induction item.2)

theorem whileFrom (steady : structured.Steady) (refines : nested.Refines structured)
    (test : ExpressionId) (body : Block) (count : Nat) :
    (Evaluation.whileFrom setup nested test body count).Refines State.Circling
      (Structured.whileFrom setup structured test body count) := by
  induction count with
  | zero => exact Evaluation.Refines.outOfFuel
  | succ count induction =>
      rw [Evaluation.whileFrom, refines.operands]
      apply Signals.after State.circling_controlled (Structured.condition_steady steady test)
      intro enters
      cases enters with
      | true =>
          exact round (Structured.iteration_completes steady none body)
            (refines.iteration steady none body) induction
      | false => exact Evaluation.Refines.normal

theorem doWhileFrom (steady : structured.Steady) (refines : nested.Refines structured)
    (body : Block) (test : ExpressionId) (count : Nat) :
    (Evaluation.doWhileFrom setup nested body test count).Refines State.Circling
      (Structured.doWhileFrom setup structured body test count) := by
  induction count with
  | zero => exact Evaluation.Refines.outOfFuel
  | succ count induction =>
      rw [Evaluation.doWhileFrom, refines.operands]
      apply round (Structured.iteration_completes steady none body)
        (refines.iteration steady none body)
      apply Signals.after State.circling_controlled (Structured.condition_steady steady test)
      intro again
      cases again with
      | true => exact induction
      | false => exact Evaluation.Refines.normal

theorem foreverFrom (steady : structured.Steady) (refines : nested.Refines structured)
    (body : Block) (count : Nat) :
    (Evaluation.foreverFrom nested body count).Refines State.Circling
      (Structured.foreverFrom structured body count) := by
  induction count with
  | zero => exact Evaluation.Refines.outOfFuel
  | succ count induction =>
      exact round (Structured.iteration_completes steady none body)
        (refines.iteration steady none body) induction

theorem loop {body : Evaluation Unit} {reference : Evaluation Completion}
    (completes : reference.Completes) (refines : body.Refines State.Circling reference) :
    (inLoop body).Refines State.Ready (Structured.loop reference) :=
  fun state ready => Evaluation.Refines.loop completes refines state ready.toCalm

theorem forEach (steady : structured.Steady) (refines : nested.Refines structured)
    (name : Name) (iterable : ExpressionId) (body : Block) :
    (Evaluation.forEach setup nested name iterable body).Refines State.Ready
      (Structured.forEach setup structured name iterable body) := by
  rw [Evaluation.forEach, refines.operands, refines.iterations]
  apply Signals.after State.ready_controlled
    (fun start => (steady.operands start).evaluate iterable .empty)
  intro source
  apply Signals.after State.ready_controlled (fun start => Triple.glance)
  intro items?
  have circles (items : Items) := loop
    (Structured.forEachFrom_completes steady name body structured.iterations items)
    (refines.forEachFrom steady name body structured.iterations items)
  cases items? with
  | none =>
      apply Evaluation.Refines.holding
      apply Signals.after State.ready_controlled (fun start => Triple.glance)
      intro kind
      exact Signals.located (Evaluation.Refines.fail _) _
  | some items =>
      cases items with
      | integers next stop =>
          apply Signals.after State.ready_controlled (Structured.release_steady [source])
          intro _
          exact circles _
      | elements source' position => exact Evaluation.Refines.holding (circles _) [source]
      | entries source' position pairType =>
          exact Evaluation.Refines.holding (circles _) [source]

/-! ## Completions other than normal -/

theorem breakLoop {kind : State → Prop} :
    Evaluation.breakLoop.Refines kind (Structured.leaveLoop .broken .breakOutsideLoop) := by
  intro state _
  have agree := @Loops.break?_isSome_iff state.loops state.calls.loopBase
  unfold Evaluation.breakLoop Structured.leaveLoop
  rw [bind_run]
  simp only [Evaluation.read]
  cases broken : state.loops.break? state.calls.loopBase with
  | some marked =>
      rw [if_pos (agree.mp (by simp [broken]))]
      simp [Outcome.signalled, State.raise, broken, pure, Evaluation.pure]
  | none =>
      rw [if_neg (fun active => by simpa [broken] using agree.mpr active)]
      rfl

theorem continueLoop {kind : State → Prop} :
    Evaluation.continueLoop.Refines kind
      (Structured.leaveLoop .continued .continueOutsideLoop) := by
  intro state _
  unfold Evaluation.continueLoop Structured.leaveLoop
  rw [bind_run]
  simp only [Evaluation.read]
  cases found : state.loops.innermost? state.calls.loopBase with
  | some frame => simp [Outcome.signalled, State.raise, found, pure, Evaluation.pure]
  | none => rfl

theorem giveBack (steady : structured.Steady) (refines : nested.Refines structured)
    (value : Option ExpressionId) :
    (Evaluation.giveBack nested.toOperands value).Refines State.Ready
      (Structured.giveBack structured value) := by
  intro state ready
  have ended := Structured.resultValue_steady (steady.operands state) value state
    (State.SameControl.refl state)
  rw [Evaluation.giveBack, Structured.giveBack, refines.operands, bind_run, bind_run]
  cases outcome : resultValue structured.toOperands value state with
  | value address middle =>
      rw [outcome] at ended
      obtain ⟨same, active⟩ := ended
      rw [← same.calls] at active
      obtain ⟨frame, current⟩ := Option.isSome_iff_exists.mp active
      have empty := ((same.calm ready.toCalm).call frame current).2
      simp only [setResult, current, State.onHeap, CallFrame.setResult, empty]
      simp only [onHeap, State.onHeap, Outcome.signalled, State.raise,
        Calls.modifyCurrent_of_current? current]
  | failure failure middle => rfl
  | stopped reason => rfl

/-! ## Calls -/

theorem runBody (steady : structured.Steady) (refines : nested.Refines structured)
    (function : Function) (arguments : List Address) :
    (Evaluation.runBody nested function arguments).Refines State.Calm
      (Structured.runBody structured function arguments) := by
  apply Signals.inScope
  apply Signals.after State.ready_controlled
    (Structured.bindParameters_steady (function.parameters.zip arguments))
  intro _
  exact refines.sequence steady function.body.statements

/-- What a call hands to its caller is what its body completed with. -/
theorem runCall (steady : structured.Steady) (refines : nested.Refines structured)
    (function : Function) (arguments : List Address) {state : State}
    (entered : state.Entered) :
    Evaluation.runCall setup nested function arguments state =
      Structured.runCall setup structured function arguments state := by
  have ended := Structured.runBody_completes steady function arguments state state
    (State.SameControl.refl state)
  unfold Evaluation.runCall Structured.runCall
  rw [refines.runBody steady function arguments state entered.toCalm]
  cases outcome : Structured.runBody structured function arguments state with
  | value completion middle =>
      rw [outcome] at ended
      obtain ⟨same, possible⟩ := ended
      have active := entered.active
      rw [← same.calls] at active
      obtain ⟨frame, current⟩ := Option.isSome_iff_exists.mp active
      have empty := ((same.calm entered.toCalm).call frame current).2
      cases completion with
      | normal =>
          simp only [Outcome.signalled, State.raise, popCall, current, State.onHeap,
            CallFrame.takeResult, empty]
          rfl
      | broken => simp [Completion.Possible, entered.outside] at possible
      | continued => simp [Completion.Possible, entered.outside] at possible
      | returned value =>
          simp only [Outcome.signalled, State.raise, popCall, Calls.current?_modifyCurrent,
            Calls.pop_modifyCurrent, current, Option.map_some, State.onHeap,
            CallFrame.takeResult]
          rfl
  | failure failure middle => rfl
  | stopped reason => rfl

theorem entered_of_enterCall {function : Function} {callSite : Span} {state after : State}
    (entered : enterCall setup function callSite state = .value () after) :
    after.Entered := by
  unfold enterCall at entered
  split at entered
  · simp at entered
  · cases entered
    exact state.entered_enter function callSite

theorem callUser (steady : structured.Steady) (refines : nested.Refines structured) :
    Evaluation.callUser setup (Evaluation.runCall setup nested) =
      Evaluation.callUser setup (Structured.runCall setup structured) := by
  funext id arguments callSite state
  unfold Evaluation.callUser
  cases setup.program.function? id with
  | none => rfl
  | some function =>
      simp only
      split
      · rfl
      · rw [bind_run, bind_run]
        cases outcome : guarding arguments (enterCall setup function callSite) state with
        | value result middle =>
            have entered : enterCall setup function callSite state = .value () middle := by
              unfold guarding at outcome
              cases inner : enterCall setup function callSite state with
              | value _ state => simpa [inner] using outcome
              | failure failure state => simp [inner] at outcome
              | stopped reason => simp [inner] at outcome
            simp only [bind_run,
              refines.runCall steady function arguments (entered_of_enterCall entered)]
        | failure failure middle => rfl
        | stopped reason => rfl

/-! ## Statements and runs -/

theorem statement (steady : structured.Steady) (refines : nested.Refines structured)
    (id : StatementId) (node : Statement) (span : Span) :
    (Evaluation.statement setup nested id node span).Refines State.Ready
      (Structured.statement setup structured id node span) := by
  cases node with
  | expression value =>
      apply Signals.located
      rw [refines.operands]
      apply Signals.after State.ready_controlled
        (fun start => (steady.operands start).evaluate value .empty)
      intro address state _
      rfl
  | declare name value =>
      apply Signals.located
      rw [refines.operands]
      intro state _
      unfold Structured.normally
      rw [bind_run]
      cases declareVariable setup structured.toOperands id name value state with
      | value result after => rfl
      | failure failure after => rfl
      | stopped reason => rfl
  | block body => exact Signals.located (refines.block steady body) span
  | branch test body otherwise =>
      simp only [Evaluation.statement, Structured.statement, refines.operands]
      apply Signals.after State.ready_controlled (Structured.condition_steady steady test)
      intro enters
      apply Signals.located
      cases enters with
      | true => exact refines.block steady body
      | false =>
          cases otherwise with
          | some alternative => exact refines.execute alternative
          | none => exact Evaluation.Refines.normal
  | forEach name iterable body =>
      exact Signals.located (refines.forEach steady name iterable body) span
  | whileLoop test body =>
      simp only [Evaluation.statement, Structured.statement, refines.iterations]
      apply Signals.located
      exact loop (Structured.whileFrom_completes steady test body structured.iterations)
        (refines.whileFrom steady test body structured.iterations)
  | doWhile body test =>
      simp only [Evaluation.statement, Structured.statement, refines.iterations]
      apply Signals.located
      exact loop (Structured.doWhileFrom_completes steady body test structured.iterations)
        (refines.doWhileFrom steady body test structured.iterations)
  | forever body =>
      simp only [Evaluation.statement, Structured.statement, refines.iterations]
      apply Signals.located
      exact loop (Structured.foreverFrom_completes steady body structured.iterations)
        (refines.foreverFrom steady body structured.iterations)
  | breakLoop => exact Signals.located breakLoop span
  | continueLoop => exact Signals.located continueLoop span
  | giveBack value => exact Signals.located (refines.giveBack steady value) span

theorem layer (steady : structured.Steady) (refines : nested.Refines structured)
    (iterations : Nat) :
    (Nested.layer setup (fun () => nested) iterations).Refines
      (Structured.layer setup (fun () => structured) iterations) := by
  constructor
  · simp only [Nested.layer, Structured.layer, refines.operands, refines.callUser steady]
  · rfl
  · intro id state ready
    show withStatement setup id _ state = (withStatement setup id _ state).signalled _
    unfold withStatement
    cases setup.program.statement? id with
    | some located => exact refines.statement steady id located.node located.span state ready
    | none => rfl

theorem withFuel (setup : Setup) (fuel : Nat) :
    (Nested.withFuel setup fuel).Refines (Structured.withFuel setup fuel) := by
  induction fuel with
  | zero =>
      constructor
      · rfl
      · rfl
      · exact fun _ => Evaluation.Refines.outOfFuel
  | succ fuel induction => exact layer (Structured.withFuel_steady setup fuel) induction fuel

end Nested.Refines

/-! ## What is the same after a run -/

/-- A run that is not cut short by a lack of fuel. -/
def Outcome.Ends {α : Type} (outcome : Outcome α) : Prop :=
  outcome ≠ .stopped .outOfFuel

namespace State

/-- The result that the current call has so far. -/
def callResult? (state : State) : Option Address :=
  state.calls.current?.bind (·.result)

/-- Nothing but the flag and the result of a completion is different from a
state that the structured semantics leaves. -/
structure Reflects (state : State) (completion : Completion) (structured : State) : Prop where
  raised : state = structured.raise completion
  output : state.output = structured.output
  heap : state.heap = structured.heap
  literals : state.literals = structured.literals
  bindings : ∀ position name,
    state.scopes.get? position name = structured.scopes.get? position name
  depth : state.scopes.depth = structured.scopes.depth
  result : state.callResult? =
    match completion with
    | .returned value => some value
    | _ => none
  signal : state.hasSignal =
    match completion with
    | .normal => false
    | _ => true

theorem Ready.reflects_raise {state : State} (ready : state.Ready) {completion : Completion}
    (possible : completion.Possible state) :
    (state.raise completion).Reflects completion state := by
  have unset : state.callResult? = none := by
    unfold callResult?
    cases current : state.calls.current? with
    | none => rfl
    | some frame => simp [(ready.call frame current).2]
  have signal := ready.hasSignal_raise possible
  cases completion with
  | normal => exact ⟨rfl, rfl, rfl, rfl, fun _ _ => rfl, rfl, unset, signal⟩
  | broken => exact ⟨rfl, rfl, rfl, rfl, fun _ _ => rfl, rfl, unset, signal⟩
  | continued =>
      obtain ⟨frame, found⟩ := Option.isSome_iff_exists.mp possible
      refine ⟨rfl, rfl, rfl, rfl, ?_, ?_, unset, signal⟩
      · intro position name
        simp [raise, found]
      · simp [raise, found]
  | returned value =>
      obtain ⟨frame, current⟩ := Option.isSome_iff_exists.mp possible
      refine ⟨rfl, rfl, rfl, rfl, fun _ _ => rfl, rfl, ?_, signal⟩
      simp [callResult?, raise, Calls.current?_modifyCurrent, current]

end State

/-- The same outcome: the same failure, or a value with a state that reflects
the completion. -/
inductive Outcome.Reflects : Outcome Unit → Outcome Completion → Prop where
  | value {state structured : State} {completion : Completion} :
      state.Reflects completion structured →
      Reflects (.value () state) (.value completion structured)
  | failure (cause : Failure) (state : State) :
      Reflects (.failure cause state) (.failure cause state)
  | stopped (reason : Stop) : Reflects (.stopped reason) (.stopped reason)

/-- From a state in which no signal is pending, a statement list ends exactly
when it does in the structured semantics, and then in the same way. -/
theorem Nested.sequence_reflects_structured (setup : Setup) (statements : List StatementId)
    (state : State) (ready : state.Ready) :
    ((∃ fuel, (Evaluation.sequence (withFuel setup fuel) statements state).Ends) ↔
      ∃ fuel,
        (Structured.sequence (Structured.withFuel setup fuel) statements state).Ends) ∧
    ∀ fuel,
      (Evaluation.sequence (withFuel setup fuel) statements state).Reflects
        (Structured.sequence (Structured.withFuel setup fuel) statements state) := by
  have reflects : ∀ fuel,
      (Evaluation.sequence (withFuel setup fuel) statements state).Reflects
        (Structured.sequence (Structured.withFuel setup fuel) statements state) := by
    intro fuel
    have steady := Structured.withFuel_steady setup fuel
    have ended := Structured.sequence_completes steady statements state state
      (State.SameControl.refl state)
    rw [(Refines.withFuel setup fuel).sequence steady statements state ready]
    cases outcome :
        Structured.sequence (Structured.withFuel setup fuel) statements state with
    | value completion after =>
        rw [outcome] at ended
        exact .value ((ended.1.ready ready).reflects_raise (ended.1.possible ended.2))
    | failure failure after => exact .failure failure after
    | stopped reason => exact .stopped reason
  have sameEnd : ∀ {actual : Outcome Unit} {structured : Outcome Completion},
      actual.Reflects structured → (actual.Ends ↔ structured.Ends) := by
    intro actual structured reflected
    cases reflected with
    | value _ => simp [Outcome.Ends]
    | failure cause state => simp [Outcome.Ends]
    | stopped reason => simp [Outcome.Ends]
  refine ⟨?_, reflects⟩
  constructor
  · rintro ⟨fuel, ends⟩
    exact ⟨fuel, (sameEnd (reflects fuel)).mp ends⟩
  · rintro ⟨fuel, ends⟩
    exact ⟨fuel, (sameEnd (reflects fuel)).mpr ends⟩

/-- A loop, the only statement of whose body leaves it. -/
def Program.leavingLoop : Program where
  statements := #[⟨.breakLoop, .empty⟩, ⟨.forever ⟨[⟨0⟩], .empty⟩, .empty⟩]

theorem State.ready_initial : ({} : State).Ready := by
  constructor
  · constructor
    · intro frame found
      simp [Loops.innermost?, Loops.depth] at found
    · intro frame current
      simp [Calls.current?] at current
  · rfl
  · intro frame found
    simp [Loops.innermost?, Loops.depth] at found

theorem Nested.sequence_reflects_structured_leavingLoop :
    ({} : State).Ready ∧
    ∃ fuel,
      (Evaluation.sequence (withFuel { program := .leavingLoop } fuel) [⟨1⟩] {}).Ends := by
  refine ⟨State.ready_initial, ?_⟩
  apply (sequence_reflects_structured { program := .leavingLoop } [⟨1⟩] {}
    State.ready_initial).1.mpr
  have ended : ∃ completion state,
      Structured.sequence (Structured.withFuel { program := .leavingLoop } 3) [⟨1⟩] {} =
        .value completion state :=
    ⟨_, _, rfl⟩
  obtain ⟨completion, state, ended⟩ := ended
  refine ⟨3, ?_⟩
  rw [ended]
  simp [Outcome.Ends]

end ScriptEngine
