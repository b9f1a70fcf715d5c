import ScriptEngine.Proofs.Control.Alignment
import ScriptEngine.Proofs.Control.Limits
import ScriptEngine.Proofs.Control.Refinement

/-!
# Orderly runs

From stacks without a signal, whatever is evaluated finds stacks without one, and
a statement leaves no signal but that of a completion that is possible there.
So the stacks are aligned wherever such a run is observed.
-/

namespace ScriptEngine

open Evaluation

namespace State

/-- Where expressions are evaluated: nothing is signalled, and the body of the
current call has a frame. -/
structure Regular (state : State) : Prop extends state.Settled where
  inside : state.calls.scopeFloor < state.scopes.depth

theorem Settled.regular_pushScope {state : State} (settled : state.Settled) :
    State.Regular { state with scopes := state.scopes.push } := by
  refine ⟨settled.pushScope, ?_⟩
  rw [Scopes.depth_push]
  exact Nat.lt_succ_of_le settled.scopeFloor_le

theorem Regular.pushLoop {state : State} (regular : state.Regular) (ready : state.Ready) :
    State.Regular
      { state with loops := state.loops.push { scopeDepth := state.scopes.depth } } := by
  refine ⟨regular.toSettled.pushLoop regular.inside ?_, regular.inside⟩
  intro floor innermost
  obtain ⟨frame, found, rfl⟩ := Option.map_eq_some_iff.mp innermost
  exact ready.within frame found

/-- A state in which a completion is signalled, with the control flow of another
one apart from that. -/
structure Raised (start : State) (completion : Completion) (last : State) : Prop where
  possible : completion.Possible start
  reached : ∃ middle, start.SameControl middle ∧ last = middle.raise completion

namespace Raised

variable {start last : State} {completion : Completion}

theorem normal (same : start.SameControl last) : start.Raised .normal last :=
  ⟨trivial, last, same, rfl⟩

theorem aligned (settled : start.Settled) (raised : start.Raised completion last) :
    last.Aligned := by
  obtain ⟨possible, middle, same, rfl⟩ := raised
  exact (settled.congr same).raise (same.possible possible)

theorem onHeap (raised : start.Raised completion last) (change : Heap → Heap) :
    start.Raised completion { last with heap := change last.heap } := by
  obtain ⟨possible, middle, same, rfl⟩ := raised
  exact ⟨possible, _, same.onHeap _, State.raise_onHeap change completion⟩

theorem popScope
    (raised : State.Raised { start with scopes := start.scopes.push } completion last) :
    start.Raised completion (last.onStorage fun scopes heap => ((), scopes.pop heap)).2 := by
  obtain ⟨possible, middle, same, rfl⟩ := raised
  exact ⟨possible, _, same.popScope, State.raise_popScope completion⟩

theorem popLoop (calm : start.Calm)
    (raised : State.Raised
      { start with loops := start.loops.push { scopeDepth := start.scopes.depth } }
      completion last) :
    start.Raised completion.afterLoop { last with loops := last.loops.pop } := by
  obtain ⟨possible, middle, same, rfl⟩ := raised
  have circling := same.circling calm.pushLoop
  refine ⟨?_, _, same.popLoop, State.raise_popLoop circling completion⟩
  cases completion with
  | normal => trivial
  | broken => trivial
  | continued => trivial
  | returned value => exact possible

/-- Where no signal is pending, the completion is the normal one. -/
theorem sameControl_of_quiet (ready : start.Ready) (raised : start.Raised completion last)
    (quiet : last.hasSignal = false) : start.SameControl last := by
  obtain ⟨possible, middle, same, rfl⟩ := raised
  rw [(same.ready ready).hasSignal_raise (same.possible possible)] at quiet
  cases completion with
  | normal => exact same
  | broken => simp at quiet
  | continued => simp at quiet
  | returned value => simp at quiet

theorem loopFinished (calm : start.Calm) (raised : start.Raised completion last) :
    last.loopFinished = !completion.goesOn := by
  obtain ⟨possible, middle, same, rfl⟩ := raised
  exact (same.calm calm).loopFinished_raise (same.possible possible)

/-- Between two iterations, a completion that lets the loop go on leaves no
trace. -/
theorem sameControl (circling : start.Circling) (raised : start.Raised completion last)
    (goesOn : completion.goesOn = true) : start.SameControl last := by
  obtain ⟨_, middle, same, rfl⟩ := raised
  cases completion with
  | normal => exact same
  | broken => simp [Completion.goesOn] at goesOn
  | continued =>
      rw [(same.circling circling).raise_continued]
      exact same
  | returned value => simp [Completion.goesOn] at goesOn

end Raised

end State

/-- A body leaves control flow as it was but for the signal of a completion, which
its result tells something about. -/
def Evaluation.Raises {α : Type} (start : State) (body : Evaluation α)
    (view : Completion → α) : Prop :=
  Triple start.SameControl body
    (fun result last => ∃ completion, result = view completion ∧ start.Raised completion last)
    start.SameControl

/-- A body that gives nothing but the signal. -/
abbrev Evaluation.Completed (start : State) (body : Evaluation Unit) : Prop :=
  body.Raises start fun _ => ()

namespace Evaluation.Raises

variable {α β : Type} {start : State} {body : Evaluation α} {view : Completion → α}

theorem normal : (Pure.pure () : Evaluation Unit).Completed start :=
  fun _ same => ⟨.normal, rfl, .normal same⟩

theorem located (raises : body.Raises start view) (span : Span) :
    (Evaluation.located span body).Raises start view :=
  Triple.located raises

theorem after {action : Evaluation β} {next : β → Evaluation α}
    (steady : Triple start.SameControl action (fun _ => start.SameControl) start.SameControl)
    (raises : ∀ result, (next result).Raises start view) : (action >>= next).Raises start view :=
  Triple.bind steady raises

theorem holding (raises : body.Raises start view) (addresses : List Address) :
    (Evaluation.holding addresses body).Raises start view := by
  apply Triple.ensuring
  apply raises.weaken
  · intro state started
    exact started
  · rintro result state ⟨completion, viewed, raised⟩
    exact ⟨completion, viewed, raised.onHeap (·.releaseAll addresses)⟩
  · intro state ended
    exact ended.onHeap _

theorem inScope
    (raises : body.Raises { start with scopes := start.scopes.push } view) :
    (Evaluation.inScope body).Raises start view := by
  intro state same
  apply Triple.ensuring _ _ same.pushScope
  apply raises.weaken
  · intro state started
    exact started
  · rintro result state ⟨completion, viewed, raised⟩
    exact ⟨completion, viewed, raised.popScope⟩
  · intro state ended
    exact ended.popScope

theorem inLoop {body : Evaluation Unit} (calm : start.Calm)
    (completed : body.Completed
      { start with loops := start.loops.push { scopeDepth := start.scopes.depth } }) :
    (Evaluation.inLoop body).Completed start := by
  intro state same
  apply Triple.ensuring _ _ same.pushLoop
  apply completed.weaken
  · intro state started
    exact started
  · rintro result state ⟨completion, viewed, raised⟩
    exact ⟨completion.afterLoop, viewed, raised.popLoop calm⟩
  · intro state ended
    exact ended.popLoop

end Evaluation.Raises

/-- Wherever expressions may be evaluated, they leave control flow alone, and
statements signal nothing but a completion that is possible. -/
structure Nested.Orderly (nested : Nested) : Prop where
  operands : ∀ start : State, start.Regular → nested.toOperands.Sound start.Unmoved
  execute : ∀ id (start : State), start.Regular → start.Ready →
    (nested.execute id).Completed start

namespace Nested.Orderly

variable {setup : Setup} {nested : Nested} {start : State}

section

variable (orderly : nested.Orderly)
include orderly

/-! ## Statement lists and blocks -/

section

variable (regular : start.Regular) (ready : start.Ready)
include regular ready

theorem sequence (statements : List StatementId) :
    (Evaluation.sequence nested statements).Completed start := by
  induction statements with
  | nil => exact Raises.normal
  | cons statement others induction =>
      apply Triple.bind (orderly.execute statement start regular ready)
      rintro _ state ⟨completion, _, raised⟩
      rw [bind_run, Evaluation.read]
      cases signal : state.hasSignal with
      | true => exact ⟨completion, rfl, raised⟩
      | false => exact induction state (raised.sameControl_of_quiet ready signal)

end

section

variable (settled : start.Settled) (calm : start.Calm)
include settled calm

theorem block (body : Block) : (Evaluation.block nested body).Completed start :=
  Raises.inScope (orderly.sequence settled.regular_pushScope calm.pushScope body.statements)

/-! ## Loops -/

theorem iteration (binding : Option (Name × Address)) (body : Block) :
    (Evaluation.iteration nested binding body).Raises start Completion.goesOn := by
  apply Raises.inScope
  have rest : (do
      Evaluation.sequence nested body.statements
      Evaluation.read (!·.loopFinished)).Raises
        { start with scopes := start.scopes.push } Completion.goesOn := by
    apply Triple.bind
      (orderly.sequence settled.regular_pushScope calm.pushScope body.statements)
    rintro _ state ⟨completion, _, raised⟩
    have stops := raised.loopFinished calm.pushScope.toCalm
    exact ⟨completion, by simp only [stops, Bool.not_not], raised⟩
  cases binding with
  | none => exact rest
  | some pair =>
      obtain ⟨name, value⟩ := pair
      exact Raises.after (Structured.declare_steady name value _) fun _ => rest

/-- A driver that stops Raises.after an iteration, or goes on. -/
theorem round (circling : start.Circling) (binding : Option (Name × Address)) (body : Block)
    {next : Evaluation Unit} (completed : next.Completed start) :
    (do if ← Evaluation.iteration nested binding body then next else pure ()).Completed start := by
  apply Triple.bind (orderly.iteration settled calm binding body)
  rintro _ state ⟨completion, rfl, raised⟩
  cases goesOn : completion.goesOn with
  | true => exact completed state (raised.sameControl circling goesOn)
  | false => exact ⟨completion, rfl, raised⟩

end

section

variable (regular : start.Regular) (circling : start.Circling)
include regular circling

theorem forEachFrom (name : Name) (body : Block) (count : Nat) (items : Items) :
    (Evaluation.forEachFrom nested name body count items).Completed start := by
  induction count generalizing items with
  | zero => exact Triple.stop (by simp)
  | succ count induction =>
      apply Raises.after fun state same => same.onHeap _
      intro item?
      cases item? with
      | none => exact Raises.normal
      | some item =>
          exact orderly.round regular.toSettled circling.toCalm circling (some (name, item.1)) body
            (induction item.2)

omit circling in
theorem condition (test : ExpressionId) :
    Triple start.SameControl (Evaluation.condition setup nested.toOperands test)
      (fun _ => start.SameControl) start.SameControl :=
  condition_triple (State.Unmoved.stable start) (orderly.operands start regular) test .empty

theorem whileFrom (test : ExpressionId) (body : Block) (count : Nat) :
    (Evaluation.whileFrom setup nested test body count).Completed start := by
  induction count with
  | zero => exact Triple.stop (by simp)
  | succ count induction =>
      apply Raises.after (orderly.condition regular test)
      intro enters
      cases enters with
      | true =>
          exact orderly.round regular.toSettled circling.toCalm circling none body induction
      | false => exact Raises.normal

theorem doWhileFrom (body : Block) (test : ExpressionId) (count : Nat) :
    (Evaluation.doWhileFrom setup nested body test count).Completed start := by
  induction count with
  | zero => exact Triple.stop (by simp)
  | succ count induction =>
      apply orderly.round regular.toSettled circling.toCalm circling none body
      apply Raises.after (orderly.condition regular test)
      intro again
      cases again with
      | true => exact induction
      | false => exact Raises.normal

theorem foreverFrom (body : Block) (count : Nat) :
    (Evaluation.foreverFrom nested body count).Completed start := by
  induction count with
  | zero => exact Triple.stop (by simp)
  | succ count induction =>
      exact orderly.round regular.toSettled circling.toCalm circling none body induction

end

section

variable (regular : start.Regular) (ready : start.Ready)
include regular ready

theorem forEach (name : Name) (iterable : ExpressionId) (body : Block) :
    (Evaluation.forEach setup nested name iterable body).Completed start := by
  have circles (items : Items) :
      (inLoop (Evaluation.forEachFrom nested name body nested.iterations items)).Completed start :=
    Raises.inLoop ready.toCalm
      (orderly.forEachFrom (regular.pushLoop ready) ready.pushLoop name body _ items)
  apply Raises.after ((orderly.operands start regular).evaluate iterable .empty)
  intro source
  apply Raises.after Triple.glance
  intro items?
  cases items? with
  | none =>
      apply Raises.holding
      apply Raises.after Triple.glance
      intro kind
      exact Triple.located (Triple.fail fun state same => same)
  | some items =>
      cases items with
      | integers next stop =>
          exact Raises.after (Structured.release_steady [source] start) fun _ => circles _
      | elements source' position => exact (circles _).holding [source]
      | entries source' position pairType => exact (circles _).holding [source]

end

/-! ## Completions other than normal -/

omit orderly in
theorem breakLoop : Evaluation.breakLoop.Completed start := by
  intro state same
  unfold Evaluation.breakLoop
  cases broken : state.loops.break? state.calls.loopBase with
  | some marked =>
      refine ⟨.broken, rfl, ?_, state, same, by simp only [State.raise, broken, Option.getD_some]⟩
      have active : (state.loops.break? state.calls.loopBase).isSome := by rw [broken]; rfl
      rw [same.loops, same.calls] at active
      exact Loops.break?_isSome_iff.mp active
  | none => exact same

omit orderly in
theorem continueLoop : Evaluation.continueLoop.Completed start := by
  intro state same
  unfold Evaluation.continueLoop
  cases found : state.loops.innermost? state.calls.loopBase with
  | some frame =>
      refine ⟨.continued, rfl, ?_, state, same, by simp only [State.raise, found]⟩
      rw [Completion.Possible, ← same.loops, ← same.calls, found]
      rfl
  | none => exact same

theorem giveBack (regular : start.Regular) (value : Option ExpressionId) :
    (Evaluation.giveBack nested.toOperands value).Completed start := by
  apply Triple.bind (Structured.resultValue_steady (orderly.operands start regular) value)
  rintro address state ⟨same, active⟩
  rw [← same.calls] at active
  obtain ⟨frame, current⟩ := Option.isSome_iff_exists.mp active
  have kept : setResult address state =
      .value () (State.raise { state with heap := (frame.setResult state.heap address).2 }
        (.returned address)) := by
    simp only [setResult, current, State.onHeap, CallFrame.setResult, State.raise,
      Calls.modifyCurrent_of_current? current]
  rw [kept]
  refine ⟨.returned address, rfl, ?_, _, same.onHeap _, rfl⟩
  rw [Completion.Possible, ← same.calls]
  exact active

/-! ## Calls -/

theorem runBody (settled : start.Settled) (calm : start.Calm) (function : Function)
    (arguments : List Address) :
    (Evaluation.runBody nested function arguments).Completed start := by
  apply Raises.inScope
  apply Raises.after
    (Structured.bindParameters_steady (function.parameters.zip arguments) _)
  intro _
  exact orderly.sequence settled.regular_pushScope calm.pushScope function.body.statements

omit orderly in
theorem popCall (function : Function) (callSite : Span) :
    Triple (fun last => ∃ completion, (start.enter function callSite).Raised completion last)
      Evaluation.popCall (fun _ => start.SameControl) start.SameControl := by
  rintro last ⟨completion, possible, middle, same, rfl⟩
  obtain ⟨frame, current⟩ : ∃ frame, middle.calls.current? = some frame := by
    rw [same.calls]
    exact ⟨_, Calls.current?_push _ _⟩
  have outside := (start.entered_enter function callSite).outside
  cases completion with
  | normal =>
      simp only [State.raise, Evaluation.popCall, current]
      exact same.popCall.onHeap _
  | broken => simp [Completion.Possible, outside] at possible
  | continued => simp [Completion.Possible, outside] at possible
  | returned value =>
      simp only [State.raise, Evaluation.popCall, Calls.current?_modifyCurrent, current,
        Option.map_some, Calls.pop_modifyCurrent]
      exact same.popCall.onHeap _

theorem runCall (regular : start.Regular) : Leaves start (Evaluation.runCall setup nested) := by
  intro function arguments callSite state same
  have settled := regular.toSettled.enter regular.inside function callSite
  have entered := start.entered_enter function callSite
  have ended := orderly.runBody settled entered.toCalm function arguments state same
  unfold Evaluation.runCall
  cases outcome : Evaluation.runBody nested function arguments state with
  | value result last =>
      rw [outcome] at ended
      obtain ⟨completion, _, raised⟩ := ended
      exact popCall function callSite last ⟨completion, raised⟩
  | failure failure last =>
      rw [outcome] at ended
      exact Structured.abandonCall_steady failure start _ last ended
  | stopped reason =>
      rw [outcome] at ended
      exact ended

/-! ## Statements and runs -/

theorem statement (regular : start.Regular) (ready : start.Ready) (id : StatementId)
    (node : Statement) (span : Span) :
    (Evaluation.statement setup nested id node span).Completed start := by
  have operands := orderly.operands start regular
  have stable := State.Unmoved.stable start
  have loops {body : Evaluation Unit}
      (completed : body.Completed
        { start with loops := start.loops.push { scopeDepth := start.scopes.depth } }) :
      (located span (inLoop body)).Completed start :=
    (Raises.inLoop ready.toCalm completed).located span
  have pushed := regular.pushLoop ready
  have circling := ready.pushLoop
  cases node with
  | expression value =>
      apply Raises.located
      apply Raises.after (operands.evaluate value .empty)
      intro address state same
      exact ⟨.normal, rfl, .normal (same.onHeap _)⟩
  | declare name value =>
      apply Raises.located
      apply (declareVariable_triple stable operands id name value .empty).weaken
      · intro state same
        exact same
      · intro _ state same
        exact ⟨.normal, rfl, .normal same⟩
      · intro state same
        exact same
  | block body => exact (orderly.block regular.toSettled ready.toCalm body).located span
  | branch test body otherwise =>
      apply Raises.after (orderly.condition regular test)
      intro enters
      apply Raises.located
      cases enters with
      | true => exact orderly.block regular.toSettled ready.toCalm body
      | false =>
          cases otherwise with
          | some alternative => exact orderly.execute alternative start regular ready
          | none => exact Raises.normal
  | forEach name iterable body =>
      exact (orderly.forEach regular ready name iterable body).located span
  | whileLoop test body => exact loops (orderly.whileFrom pushed circling test body _)
  | doWhile body test => exact loops (orderly.doWhileFrom pushed circling body test _)
  | forever body => exact loops (orderly.foreverFrom pushed circling body _)
  | breakLoop => exact breakLoop.located span
  | continueLoop => exact continueLoop.located span
  | giveBack value => exact (orderly.giveBack regular value).located span

theorem layerWith {run : Function → List Address → Evaluation (Option Address)}
    (leaves : ∀ start : State, start.Regular → Leaves start run) (iterations : Nat) :
    (Nested.layerWith setup run nested iterations).Orderly := by
  constructor
  · intro start regular
    have stable := State.Unmoved.stable start
    have operands := orderly.operands start regular
    have calls : CallsSound start.Unmoved setup (Evaluation.callUser setup run) := by
      constructor
      · intro name arguments hand
        exact Structured.callBuiltin_steady name arguments start
      · intro function arguments callSite hand
        exact Structured.callUser_steady (leaves start regular) function arguments callSite
    constructor
    · intro id hand
      show Triple _ (withExpression setup id _) _ _
      unfold withExpression
      split
      · exact expression_triple stable operands calls id _ _ hand
      · exact Triple.stop (by simp)
    · intro id hand
      show Triple _ (withExpression setup id _) _ _
      unfold withExpression
      split
      · exact sharedExpression_triple stable operands id _ _ hand
      · exact Triple.stop (by simp)
    · intro id hand
      show Triple _ (withExpression setup id _) _ _
      unfold withExpression
      split
      · exact targetExpression_triple stable operands _ _ hand
      · exact Triple.stop (by simp)
  · intro id start regular ready
    show Triple _ (withStatement setup id _) _ _
    unfold withStatement
    split
    · exact orderly.statement regular ready id _ _
    · exact Triple.stop (by simp)

/-- An observer that allows aligned stacks interrupts nothing. -/
theorem observed {allowed : State → Prop} (allows : ∀ state : State, state.Aligned → allowed state) :
    (Nested.observed allowed nested).Orderly := by
  constructor
  · intro start regular
    apply Nested.observed_operands (orderly.operands start regular)
    exact fun _ state same => allows state (regular.toSettled.congr same).aligned
  · intro id start regular ready
    have allowing (state : State) (same : start.SameControl state) : allowed state :=
      allows state (regular.toSettled.congr same).aligned
    apply (orderly.execute id start regular ready).observed allowing _ allowing
    rintro _ state ⟨completion, _, raised⟩
    exact allows state (raised.aligned regular.toSettled)

/-- One that looks at expressions alone finds nothing signalled. -/
theorem observed_operands {allowed : State → Prop}
    (allows : ∀ state : State, state.Settled → allowed state) :
    Nested.Orderly { Nested.observed allowed nested with execute := nested.execute } := by
  refine ⟨?_, orderly.execute⟩
  intro start regular
  apply Nested.observed_operands (orderly.operands start regular)
  exact fun _ state same => allows state (regular.toSettled.congr same)

end

theorem exhausted : Nested.exhausted.Orderly where
  operands _ _ :=
    { evaluate := fun _ _ => Triple.stop (by simp)
      share := fun _ _ => Triple.stop (by simp)
      target := fun _ _ => Triple.stop (by simp) }
  execute _ _ _ _ := Triple.stop (by simp)

end Nested.Orderly

namespace Nested

variable {allowed : State → Prop}

/-- Every node and every body of a call finds the stacks aligned, and leaves them
so. -/
theorem monitored_orderly (setup : Setup)
    (allows : ∀ state : State, state.Aligned → allowed state) (fuel : Nat) :
    (monitored setup allowed fuel).Orderly ∧
      ∀ start : State, start.Regular →
        Leaves start (observedCall setup allowed (monitored setup allowed fuel)) := by
  have bodies {nested : Nested} (orderly : nested.Orderly) (start : State)
      (regular : start.Regular) : Leaves start (observedCall setup allowed nested) := by
    intro function arguments callSite
    apply (orderly.runCall regular function arguments callSite).observed
    · intro state same
      have settled := regular.toSettled.enter regular.inside function callSite
      exact allows state (settled.congr same).aligned
    · exact fun _ state same => allows state (regular.toSettled.congr same).aligned
    · exact fun state same => allows state (regular.toSettled.congr same).aligned
  induction fuel with
  | zero => exact ⟨.exhausted, bodies .exhausted⟩
  | succ fuel induction =>
      have layered : (monitored setup allowed (fuel + 1)).Orderly :=
        (induction.1.layerWith induction.2 fuel).observed allows
      exact ⟨layered, bodies layered⟩

/-- The evaluator with fuel, every expression of which is observed. -/
noncomputable def attended (setup : Setup) (allowed : State → Prop) : Nat → Nested
  | 0 => exhausted
  | fuel + 1 =>
      let layered := layer setup (fun () => attended setup allowed fuel) fuel
      { observed allowed layered with execute := layered.execute }

theorem attended_orderly (setup : Setup)
    (allows : ∀ state : State, state.Settled → allowed state) (fuel : Nat) :
    (attended setup allowed fuel).Orderly := by
  induction fuel with
  | zero => exact .exhausted
  | succ fuel induction =>
      have layered : (layer setup (fun () => attended setup allowed fuel) fuel).Orderly :=
        induction.layerWith (fun _ => induction.runCall) fuel
      exact layered.observed_operands allows

end Nested

end ScriptEngine
