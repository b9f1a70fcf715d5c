import ScriptEngine.Proofs.Control.Signals
import ScriptEngine.Proofs.Custody.Runs

/-!
# Steady control

The structured semantics never marks a frame, and leaves its stacks as it
found them.  It completes with `break` or `continue` only inside a loop, and
with `return` only inside a call.
-/

namespace ScriptEngine

open Evaluation

theorem State.SameControl.onHeap {before after : State} (same : before.SameControl after)
    (heap : Heap) : before.SameControl { after with heap := heap } :=
  ⟨same.calls, same.loops, same.skips⟩

/-- The assertion that control flow is as it was at the start. -/
def State.Unmoved (start : State) : Assertion :=
  fun _ state => start.SameControl state

theorem State.Unmoved.stable (start : State) : start.Unmoved.Stable ⟨False, False⟩ where
  step same _ control := State.SameControl.trans same control

/-- Control flow is as before, and a completion is possible. -/
def Evaluation.Completes (body : Evaluation Completion) : Prop :=
  ∀ start : State, Triple start.SameControl body
    (fun completion state => start.SameControl state ∧ completion.Possible start)
    start.SameControl

/-- A call that is entered from a state ends with the control flow that was there. -/
def Evaluation.Leaves (start : State)
    (run : Function → List Address → Evaluation (Option Address)) : Prop :=
  ∀ function arguments callSite,
    Triple (start.enter function callSite).SameControl (run function arguments)
      (fun _ => start.SameControl) start.SameControl

structure Structured.Steady (structured : Structured) : Prop where
  operands : ∀ start : State, structured.toOperands.Sound start.Unmoved
  execute : ∀ id, (structured.execute id).Completes

namespace Scopes

variable {scopes : Scopes}

/-- The flags that are left when the innermost frame goes. -/
theorem skips_pop_of_skips {lower : List Bool} {flag : Bool}
    (split : scopes.skips = lower ++ [flag]) (root : lower ≠ []) (heap : Heap) :
    (scopes.pop heap).1.skips = lower := by
  cases last : scopes.nested.back? with
  | none =>
      have single : scopes.nested = #[] := Array.back?_eq_none_iff.mp last
      have counted := congrArg List.length split
      rw [length_skips, depth, single, List.length_append] at counted
      have empty : lower.length = 0 := by simpa using counted.symm
      exact absurd (List.length_eq_zero_iff.mp empty) root
  | some frame =>
      rw [pop_of_back? last]
      rw [skips, frames_dropFrame last, List.map_append, List.map_singleton] at split
      exact (List.append_inj' split rfl).1

end Scopes

namespace State.SameControl

variable {start state : State}

theorem pushScope (same : start.SameControl state) :
    State.SameControl { start with scopes := start.scopes.push }
      { state with scopes := state.scopes.push } := by
  refine ⟨same.calls, same.loops, ?_⟩
  rw [Scopes.skips_push, Scopes.skips_push, same.skips]

theorem popScope (same : State.SameControl { start with scopes := start.scopes.push } state) :
    start.SameControl (state.onStorage fun scopes heap => ((), scopes.pop heap)).2 := by
  refine ⟨same.calls, same.loops, ?_⟩
  have split := same.skips
  rw [Scopes.skips_push] at split
  apply Scopes.skips_pop_of_skips split
  intro empty
  have counted := start.scopes.length_skips
  rw [empty, Scopes.depth] at counted
  simp at counted

theorem pushLoop (same : start.SameControl state) :
    State.SameControl
      { start with loops := start.loops.push { scopeDepth := start.scopes.depth } }
      { state with loops := state.loops.push { scopeDepth := state.scopes.depth } } := by
  refine ⟨same.calls, ?_, same.skips⟩
  rw [same.loops, same.depth]

theorem popLoop {frame : LoopFrame}
    (same : State.SameControl { start with loops := start.loops.push frame } state) :
    start.SameControl { state with loops := state.loops.pop } := by
  refine ⟨same.calls, ?_, same.skips⟩
  rw [same.loops]
  simp [Loops.push, Loops.pop]

theorem popCall {frame : CallFrame}
    (same : State.SameControl { start with calls := start.calls.push frame } state) :
    start.SameControl { state with calls := state.calls.pop } := by
  refine ⟨?_, same.loops, same.skips⟩
  rw [same.calls, Calls.pop_push]

end State.SameControl

namespace Evaluation

variable {α : Type} {setup : Setup}

namespace Completes

variable {body : Evaluation Completion}

theorem located (completes : body.Completes) (span : Span) :
    (Evaluation.located span body).Completes :=
  fun start => Triple.located (completes start)

theorem after {action : Evaluation α} {next : α → Evaluation Completion}
    (steady : ∀ start : State, Triple start.SameControl action (fun _ => start.SameControl)
      start.SameControl)
    (completes : ∀ result, (next result).Completes) : (action >>= next).Completes := by
  intro start
  apply Triple.bind (steady start)
  intro result
  exact completes result start

theorem normal : (Pure.pure .normal : Evaluation Completion).Completes :=
  fun _ => Triple.pure fun _ same => ⟨same, trivial⟩

theorem fail (cause : Cause) : (Evaluation.fail cause : Evaluation Completion).Completes :=
  fun _ => Triple.fail fun _ same => same

theorem outOfFuel : (Evaluation.stop .outOfFuel : Evaluation Completion).Completes :=
  fun _ => Triple.stop (by simp)

theorem inScope (completes : body.Completes) : (Evaluation.inScope body).Completes := by
  intro start state same
  apply Triple.ensuring _ _ same.pushScope
  apply (completes { start with scopes := start.scopes.push }).weaken
  · intro state started
    exact started
  · intro completion state ended
    exact ⟨ended.1.popScope, ended.2⟩
  · intro state ended
    exact ended.popScope

/-- A loop consumes what is meant for it. -/
theorem loop (completes : body.Completes) : (Structured.loop body).Completes := by
  intro start
  have ran : Triple start.SameControl (inLoop body)
      (fun completion state => start.SameControl state ∧ completion.afterLoop.Possible start)
      start.SameControl := by
    intro state same
    apply Triple.ensuring _ _ same.pushLoop
    apply (completes _).weaken
    · intro state started
      exact started
    · intro completion state ended
      refine ⟨ended.1.popLoop, ?_⟩
      cases completion with
      | normal => trivial
      | broken => trivial
      | continued => trivial
      | returned value => exact ended.2
    · intro state ended
      exact ended.popLoop
  apply Triple.bind ran
  intro completion
  exact Triple.pure fun state ended => ended

end Completes

end Evaluation

namespace Structured

variable {setup : Setup} {structured : Structured}

theorem release_steady (addresses : List Address) (start : State) :
    Triple start.SameControl (release addresses) (fun _ => start.SameControl)
      start.SameControl :=
  fun _ same => same.onHeap _

theorem declare_steady (name : Name) (value : Address) (start : State) :
    Triple start.SameControl (declare name value) (fun _ => start.SameControl)
      start.SameControl :=
  declare_triple (State.Unmoved.stable start) (fun lent : false = true => nomatch lent) name
    value .empty

/-! ## Statement lists and loops -/

theorem sequence_completes (steady : structured.Steady) (statements : List StatementId) :
    (sequence structured statements).Completes := by
  induction statements with
  | nil => exact Completes.normal
  | cons statement others induction =>
      intro start
      apply Triple.bind (steady.execute statement start)
      intro completion
      split
      · apply (induction start).weaken
        · intro state ended
          exact ended.1
        · intro completion state ended
          exact ended
        · intro state ended
          exact ended
      · exact Triple.pure fun state ended => ended

theorem iteration_completes (steady : structured.Steady)
    (binding : Option (Name × Address)) (body : Block) :
    (iteration structured binding body).Completes := by
  apply Completes.inScope
  have rest := sequence_completes steady body.statements
  cases binding with
  | none => exact rest
  | some pair =>
      obtain ⟨name, value⟩ := pair
      exact Completes.after (declare_steady name value) fun _ => rest

/-- A driver that stops after an iteration, or goes on. -/
theorem round_completes {iteration next : Evaluation Completion}
    (completes : iteration.Completes) (rest : next.Completes) :
    (do
      let completion ← iteration
      if completion.goesOn then next else pure completion).Completes := by
  intro start
  apply Triple.bind (completes start)
  intro completion
  split
  · apply (rest start).weaken
    · intro state ended
      exact ended.1
    · intro completion state ended
      exact ended
    · intro state ended
      exact ended
  · exact Triple.pure fun state ended => ended

theorem forEachFrom_completes (steady : structured.Steady) (name : Name) (body : Block)
    (count : Nat) (items : Items) :
    (forEachFrom structured name body count items).Completes := by
  induction count generalizing items with
  | zero => exact Completes.outOfFuel
  | succ count induction =>
      apply Completes.after
      · intro start state same
        exact same.onHeap _
      · intro item?
        cases item? with
        | none => exact Completes.normal
        | some item =>
            exact round_completes (iteration_completes steady (some (name, item.1)) body)
              (induction item.2)

theorem condition_steady (steady : structured.Steady) (test : ExpressionId) (start : State) :
    Triple start.SameControl (condition setup structured.toOperands test)
      (fun _ => start.SameControl) start.SameControl :=
  condition_triple (State.Unmoved.stable start) (steady.operands start) test .empty

theorem whileFrom_completes (steady : structured.Steady) (test : ExpressionId) (body : Block)
    (count : Nat) : (whileFrom setup structured test body count).Completes := by
  induction count with
  | zero => exact Completes.outOfFuel
  | succ count induction =>
      apply Completes.after (condition_steady steady test)
      intro enters
      split
      · exact round_completes (iteration_completes steady none body) induction
      · exact Completes.normal

theorem doWhileFrom_completes (steady : structured.Steady) (body : Block)
    (test : ExpressionId) (count : Nat) :
    (doWhileFrom setup structured body test count).Completes := by
  induction count with
  | zero => exact Completes.outOfFuel
  | succ count induction =>
      apply round_completes (iteration_completes steady none body)
      apply Completes.after (condition_steady steady test)
      intro again
      split
      · exact induction
      · exact Completes.normal

theorem foreverFrom_completes (steady : structured.Steady) (body : Block) (count : Nat) :
    (foreverFrom structured body count).Completes := by
  induction count with
  | zero => exact Completes.outOfFuel
  | succ count induction =>
      exact round_completes (iteration_completes steady none body) induction

theorem Completes.holding {body : Evaluation Completion} (completes : body.Completes)
    (addresses : List Address) : (Evaluation.holding addresses body).Completes := by
  intro start
  apply Triple.ensuring
  apply (completes start).weaken
  · intro state started
    exact started
  · intro completion state ended
    exact ⟨ended.1.onHeap _, ended.2⟩
  · intro state ended
    exact ended.onHeap _

theorem forEach_completes (steady : structured.Steady) (name : Name)
    (iterable : ExpressionId) (body : Block) :
    (forEach setup structured name iterable body).Completes := by
  apply Completes.after (fun start => (steady.operands start).evaluate iterable .empty)
  intro source
  apply Completes.after (fun start => Triple.glance)
  intro items?
  split
  · apply Completes.after (release_steady [source])
    · intro _
      exact Completes.loop (forEachFrom_completes steady name body structured.iterations _)
  · apply Completes.holding
    exact Completes.loop (forEachFrom_completes steady name body structured.iterations _)
  · apply Completes.holding
    apply Completes.after (fun start => Triple.glance)
    intro kind
    exact Completes.located (Completes.fail _) _

/-! ## Completions other than normal -/

theorem leaveLoop_completes (completion : Completion) (cause : Cause)
    (possible : ∀ start : State,
      (start.loops.innermost? start.calls.loopBase).isSome → completion.Possible start) :
    (leaveLoop completion cause).Completes := by
  intro start
  apply Triple.bind Triple.read
  intro innermost?
  split
  · rename_i active
    apply Triple.pure
    intro state ended
    obtain ⟨same, viewed⟩ := ended
    refine ⟨same, possible start ?_⟩
    rw [viewed, same.loops, same.calls] at active
    exact active
  · exact Triple.fail fun state ended => ended.1

/-- Only inside a call is a result computed. -/
theorem resultValue_steady {operands : Operands} {start : State}
    (sound : operands.Sound start.Unmoved) (value : Option ExpressionId) :
    Triple start.SameControl (resultValue operands value)
      (fun _ state => start.SameControl state ∧ start.calls.current?.isSome)
      start.SameControl := by
  by_cases active : start.calls.current?.isSome
  · apply (resultValue_triple (State.Unmoved.stable start) sound value .empty).weaken
    · intro state same
      exact same
    · intro address state same
      exact ⟨same, active⟩
    · intro state same
      exact same
  · intro state same
    have outside : state.calls.current? = none := by
      rw [same.calls]
      exact Option.not_isSome_iff_eq_none.mp active
    simp only [resultValue, bind_run, Evaluation.read, outside, Option.isNone_none, if_true]
    exact same

theorem giveBack_completes (steady : structured.Steady) (value : Option ExpressionId) :
    (giveBack structured value).Completes := by
  intro start
  apply Triple.bind (resultValue_steady (steady.operands start) value)
  intro address state ended
  exact ⟨ended.1.onHeap _, ended.2⟩

/-! ## Calls -/

theorem bindParameters_steady (pairs : List (Parameter × Address)) (start : State) :
    Triple start.SameControl (bindParameters pairs) (fun _ => start.SameControl)
      start.SameControl := by
  induction pairs with
  | nil => exact Triple.pure fun state same => same
  | cons pair others induction =>
      apply Triple.bind (declare_steady pair.1.name pair.2 start)
      intro _
      exact induction

theorem runBody_completes (steady : structured.Steady) (function : Function)
    (arguments : List Address) : (runBody structured function arguments).Completes := by
  apply Completes.inScope
  apply Completes.after (bindParameters_steady (function.parameters.zip arguments))
  intro _
  exact sequence_completes steady function.body.statements

theorem abandonCall_steady {α : Type} (failure : Failure) (start : State) (frame : CallFrame) :
    Triple (State.SameControl { start with calls := start.calls.push frame })
      (abandonCall setup failure : Evaluation α) (fun _ => start.SameControl)
      start.SameControl := by
  intro state same
  have current : state.calls.current? = some frame := by
    rw [same.calls, Calls.current?_push]
  simp only [abandonCall, current]
  exact same.popCall.onHeap _

theorem runCall_leaves (steady : structured.Steady) (start : State) :
    Leaves start (runCall setup structured) := by
  intro function arguments callSite state same
  have ended := runBody_completes steady function arguments _ state same
  unfold runCall
  cases outcome : runBody structured function arguments state with
  | value completion state =>
      rw [outcome] at ended
      cases completion with
      | normal => exact ended.1.popCall
      | broken => exact ended.1.popCall
      | continued => exact ended.1.popCall
      | returned value => exact ended.1.popCall.onHeap _
  | failure failure state =>
      rw [outcome] at ended
      exact abandonCall_steady failure start _ state ended
  | stopped reason =>
      rw [outcome] at ended
      exact ended

theorem enterCall_steady (function : Function) (arguments : List Address) (callSite : Span)
    (start : State) :
    Triple start.SameControl (guarding arguments (enterCall setup function callSite))
      (fun _ => (start.enter function callSite).SameControl) start.SameControl := by
  apply Triple.guarding
  intro state same
  unfold enterCall
  cases state.calls.exceeded? with
  | some limit => exact same.onHeap _
  | none =>
      refine ⟨?_, same.loops, same.skips⟩
      simp only [State.enter, same.calls, same.depth, same.loops]

theorem callUser_steady {run : Function → List Address → Evaluation (Option Address)}
    {start : State} (leaves : Leaves start run) (id : FunctionId) (arguments : List Address)
    (callSite : Span) :
    Triple start.SameControl (callUser setup run id arguments callSite)
      (fun _ => start.SameControl) start.SameControl := by
  unfold callUser
  cases setup.program.function? id with
  | none => exact Triple.stop (by simp)
  | some function =>
      simp only
      split
      · apply Triple.bind (release_steady arguments start)
        intro _
        apply Triple.located
        exact Triple.fail fun state same => same
      · apply Triple.bind (enterCall_steady function arguments callSite start)
        intro _
        apply Triple.bind (leaves function arguments callSite)
        intro result?
        cases result? with
        | some result => exact Triple.pure fun state same => same
        | none =>
            simp only
            split
            · intro state same
              exact same.onHeap _
            · apply Triple.located
              exact Triple.fail fun state same => same

theorem callBuiltin_steady (name : Name) (arguments : List Address) (start : State) :
    Triple start.SameControl (callBuiltin setup name arguments) (fun _ => start.SameControl)
      start.SameControl := by
  unfold callBuiltin
  apply Triple.ensuring
  split
  · rename_i builtin found
    intro state same
    have kept : ∀ (heap : Heap) (output : Output),
        start.SameControl { state with heap := heap, output := output } :=
      fun heap output => ⟨same.calls, same.loops, same.skips⟩
    unfold invokeBuiltin
    cases outcome : (builtin.invoke arguments state.heap state.output).value with
    | ok value =>
        simp only [outcome]
        exact (kept _ _).onHeap _
    | error failure =>
        simp only [outcome]
        exact (kept _ _).onHeap _
  · exact Triple.fail fun state same => same.onHeap _

/-! ## Statements -/

theorem normally_completes {action : Evaluation Unit}
    (steady : ∀ start : State, Triple start.SameControl action (fun _ => start.SameControl)
      start.SameControl) : (normally action).Completes :=
  Completes.after steady fun _ => Completes.normal

theorem statement_completes (steady : structured.Steady) (id : StatementId)
    (node : Statement) (span : Span) :
    (statement setup structured id node span).Completes := by
  cases node with
  | expression value =>
      apply Completes.located
      apply Completes.after (fun start => (steady.operands start).evaluate value .empty)
      intro address
      exact normally_completes (release_steady [address])
  | declare name value =>
      apply Completes.located
      apply normally_completes
      intro start
      exact declareVariable_triple (State.Unmoved.stable start) (steady.operands start) id name
        value .empty
  | block body =>
      apply Completes.located
      exact Completes.inScope (sequence_completes steady body.statements)
  | branch test body otherwise =>
      apply Completes.after (condition_steady steady test)
      intro enters
      apply Completes.located
      split
      · exact Completes.inScope (sequence_completes steady body.statements)
      · split
        · exact steady.execute _
        · exact Completes.normal
  | forEach name iterable body =>
      exact Completes.located (forEach_completes steady name iterable body) span
  | whileLoop test body =>
      apply Completes.located
      exact Completes.loop (whileFrom_completes steady test body structured.iterations)
  | doWhile body test =>
      apply Completes.located
      exact Completes.loop (doWhileFrom_completes steady body test structured.iterations)
  | forever body =>
      apply Completes.located
      exact Completes.loop (foreverFrom_completes steady body structured.iterations)
  | breakLoop =>
      exact Completes.located (leaveLoop_completes .broken _ fun start active => active) span
  | continueLoop =>
      exact Completes.located (leaveLoop_completes .continued _ fun start active => active) span
  | giveBack value => exact Completes.located (giveBack_completes steady value) span

/-! ## Runs -/

theorem layer_steady {inner : Structured} (steady : inner.Steady) (iterations : Nat) :
    (layer setup (fun () => inner) iterations).Steady := by
  have calls : ∀ start : State, CallsSound start.Unmoved setup
      (callUser setup (runCall setup inner)) := by
    intro start
    constructor
    · intro name arguments hand
      exact callBuiltin_steady name arguments start
    · intro function arguments callSite hand
      exact callUser_steady (runCall_leaves steady start) function arguments callSite
  constructor
  · intro start
    have stable := State.Unmoved.stable start
    have operands := steady.operands start
    constructor
    · intro id hand
      show Triple _ (withExpression setup id _) _ _
      unfold withExpression
      split
      · exact expression_triple stable operands (calls start) id _ _ hand
      · exact Triple.stop (by simp)
    · intro id hand
      show Triple _ (withExpression setup id _) _ _
      unfold withExpression
      split
      · exact sharedExpression_triple stable operands id _ _ hand
      · exact Triple.stop (by simp)
    · intro id hand
      show Triple _ (withExpression setup id _) _ _
      unfold withExpression
      split
      · exact targetExpression_triple stable operands _ _ hand
      · exact Triple.stop (by simp)
  · intro id start
    show Triple _ (withStatement setup id _) _ _
    unfold withStatement
    split
    · exact statement_completes steady id _ _ start
    · exact Triple.stop (by simp)

theorem withFuel_steady (setup : Setup) (fuel : Nat) : (withFuel setup fuel).Steady := by
  induction fuel with
  | zero =>
      constructor
      · intro start
        exact
          { evaluate := fun _ _ => Triple.stop (by simp)
            share := fun _ _ => Triple.stop (by simp)
            target := fun _ _ => Triple.stop (by simp) }
      · exact fun _ => Completes.outOfFuel
  | succ fuel induction => exact layer_steady induction fuel

end Structured

end ScriptEngine
