import ScriptEngine.Proofs.Control.Blame
import ScriptEngine.Proofs.Isolation.Bodies
import ScriptEngine.Proofs.Isolation.Discretion

/-!
# Calls above callers

A call does the same above the frames of callers as without them, however deep calls nest in
it, as long as no limit on calls is exceeded.  Built-in functions take part in this if they
do not report what cannot be read off values: in how many slots an object is.
-/

namespace ScriptEngine

theorem Failure.IsOverflow.attach {failure : Failure} (overflow : failure.IsOverflow)
    (names : Interner) (calls : Calls) : (calls.attach names failure).IsOverflow := by
  obtain ⟨limit, cause⟩ := overflow
  exact ⟨limit, (Calls.cause_attach calls names failure).trans cause⟩

namespace Callers

open Evaluation

variable {callers : Callers} {height : Height} {setup : Setup} {operands : Operands}
variable {nested : Nested}

/-! ## Bodies of functions -/

theorem bindParameters_lifts (inside : height.Inside) (bindings : List (Parameter × Address)) :
    callers.Alike height (bindParameters bindings) := by
  induction bindings with
  | nil => exact Lifts.pure ()
  | cons binding bindings induction =>
      exact Lifts.bind (Lifts.declare inside binding.1.name binding.2) fun _ => induction

theorem runBody_lifts (inner : callers.NestedLift nested) (function : Function)
    (arguments : List Address) :
    callers.Alike height.inCall (runBody nested function arguments) := by
  apply Lifts.inScope
  apply Lifts.bind (bindParameters_lifts height.inside_inCall _)
  exact fun _ => sequence_lifts height.inside_inCall inner function.body.statements

/-- A call frame is taken off above callers as without them. -/
theorem Lift.popCall {state lifted : State} (lift : callers.Lift height.inCall state lifted)
    {heap other : Heap} (same : heap.Resembles other) :
    callers.Lift height { state with calls := state.calls.pop, heap := heap }
      { lifted with calls := lifted.calls.pop, heap := other } := by
  have depth : state.calls.depth = height.calls + 1 := congrArg Height.calls lift.height
  have scopes : state.scopes.nested.size = height.scopes := congrArg Height.scopes lift.height
  have loops : state.loops.depth = height.loops := congrArg Height.loops lift.height
  refine ⟨lift.scopes, lift.loops, lift.calls.pop (by omega), same, lift.literals, lift.output, ?_⟩
  simp only [Calls.depth] at depth
  simp [State.height, Calls.pop, Calls.depth, depth, scopes, loops]

theorem Lift.current? {state lifted : State} (lift : callers.Lift height.inCall state lifted) :
    ∃ frame, state.calls.current? = some frame ∧
      lifted.calls.current? = some (callers.raiseCall frame) := by
  have depth : state.calls.depth = height.calls + 1 := congrArg Height.calls lift.height
  obtain ⟨frame, found, found', _⟩ := lift.calls.current? (by omega)
  exact ⟨frame, found, found'⟩

theorem runCall_lifts (inner : callers.NestedLift nested) (function : Function)
    (arguments : List Address) {state lifted : State}
    (lift : callers.Lift height.inCall state lifted) :
    Outcome.Lifts (fun result => result) (callers.Lift height)
      (runCall setup nested function arguments state)
      (runCall setup nested function arguments lifted) := by
  unfold runCall
  have ended := runBody_lifts inner function arguments state lifted lift
  generalize runBody nested function arguments state = one,
    runBody nested function arguments lifted = another at ended ⊢
  cases ended with
  | value lift =>
      obtain ⟨frame, found, found'⟩ := lift.current?
      simp only [Evaluation.popCall, found, found', State.onHeap, CallFrame.takeResult]
      cases known : frame.result with
      | none =>
          simp only [raiseCall, known]
          exact .value (lift.popCall lift.heap)
      | some value =>
          simp only [raiseCall, known]
          exact .value (lift.popCall (lift.heap.setPinned value false))
  | failure same lift =>
      obtain ⟨frame, found, found'⟩ := lift.current?
      simp only [abandonCall, found, found', State.onHeap, CallFrame.discard]
      refine .failure ⟨?_, ?_⟩ (lift.popCall ?_)
      · rw [Calls.cause_attach, Calls.cause_attach, same.cause]
      · rw [Calls.span_attach, Calls.span_attach, same.span]
      · cases known : frame.result with
        | none =>
            simp only [raiseCall, known]
            exact lift.heap
        | some value =>
            simp only [raiseCall, known]
            exact (lift.heap.setPinned value false).release value
  | stopped reason => exact .stopped reason
  | @overflow _ failure last exceeds =>
      have abandoned : ∃ last', @abandonCall setup (Option Address) failure last =
          .failure (last.calls.attach setup.program.names failure) last' := by
        unfold abandonCall
        cases last.calls.current? with
        | none => exact ⟨_, rfl⟩
        | some frame => exact ⟨_, rfl⟩
      obtain ⟨last', abandoned⟩ := abandoned
      dsimp only
      rw [abandoned]
      exact .overflow (exceeds.attach _ _)

/-- Without a limit every call is entered. -/
theorem enterCall_lifts (function : Function) (callSite : Span) {state lifted : State}
    (lift : callers.Lift height state lifted) :
    (∃ entered entered', enterCall setup function callSite state = .value () entered ∧
      enterCall setup function callSite lifted = .value () entered' ∧
        callers.Lift height.inCall entered entered') ∨
      ∃ failure last, enterCall setup function callSite lifted = .failure failure last ∧
        failure.IsOverflow := by
  have free : state.calls.exceeded? = none := by
    simp [Calls.exceeded?, lift.calls.unlimited]
  cases exceeded : lifted.calls.exceeded? with
  | some limit =>
      refine Or.inr ⟨_, lifted, by simp only [enterCall, exceeded]; rfl, ?_⟩
      exact Failure.IsOverflow.attach ⟨limit, rfl⟩ _ _
  | none =>
      refine Or.inl ⟨_, _, by simp only [enterCall, free]; rfl,
        by simp only [enterCall, exceeded]; rfl, ?_⟩
      rw [lift.scopes.depth, lift.loops.depth]
      refine ⟨lift.scopes, lift.loops, lift.calls.push state.scopes.depth_pos, lift.heap,
        lift.literals, lift.output, ?_⟩
      rw [← lift.height]
      simp [State.height, Height.inCall, Calls.push, Calls.depth]

theorem callUser_lifts (inner : callers.NestedLift nested) (id : FunctionId)
    (arguments : List Address) (callSite : Span) :
    callers.Alike height (callUser setup (runCall setup nested) id arguments callSite) := by
  unfold callUser
  cases setup.program.function? id with
  | none => exact Lifts.stop _
  | some function =>
      dsimp only
      split
      · exact Lifts.bind (Lifts.release _) fun _ => (Lifts.fail _).located _
      · intro state lifted lift
        rw [bind_run, bind_run]
        unfold Evaluation.guarding
        rcases enterCall_lifts function callSite lift with
          ⟨entered, entered', enters, enters', lift⟩ | ⟨failure, last, exceeded, overflow⟩
        · rw [enters, enters']
          have called : Outcome.Lifts (fun result => result) (callers.Lift height)
              (runCall setup nested function arguments entered)
              (runCall setup nested function arguments entered') :=
            runCall_lifts inner function arguments lift
          dsimp only
          rw [bind_run, bind_run]
          generalize runCall setup nested function arguments entered = one,
            runCall setup nested function arguments entered' = another at called ⊢
          cases called with
          | @value result _ _ lift =>
              cases result with
              | some address => exact .value lift
              | none =>
                  dsimp only
                  split
                  · exact Lifts.newScalar _ _ _ lift
                  · exact (Lifts.fail _).located _ _ _ lift
          | failure same lift => exact .failure same lift
          | stopped reason => exact .stopped reason
          | overflow exceeds => exact .overflow exceeds
        · rw [exceeded]
          exact .overflow overflow

theorem invokeBuiltin_lifts {builtin : Builtin} (blind : builtin.Blind) (arguments : List Address) :
    callers.Alike height (invokeBuiltin builtin arguments) := by
  intro state lifted lift
  obtain ⟨value, heap, output⟩ := blind.invoke arguments state.output lift.heap
  simp only [invokeBuiltin, ← lift.output, value]
  have after : callers.Lift height
      { state with
        heap := (builtin.invoke arguments state.heap state.output).heap
        output := (builtin.invoke arguments state.heap state.output).output }
      { lifted with
        heap := (builtin.invoke arguments lifted.heap state.output).heap
        output := (builtin.invoke arguments lifted.heap state.output).output } :=
    ⟨lift.scopes, lift.loops, lift.calls, heap, lift.literals, output, lift.height⟩
  cases (builtin.invoke arguments lifted.heap state.output).value with
  | ok address => exact .value after
  | error failure => exact .failure ⟨rfl, rfl⟩ after

theorem call_lifts (inner : callers.NestedLift nested) (inside : height.Inside) {callee : Callee}
    {arguments : List ExpressionId} (callSite : Span)
    (blind : ∀ name builtin, callee = .builtin name →
      setup.builtins.get? (setup.program.names.lookup name) = some builtin → builtin.Blind) :
    callers.Alike height
      (call setup nested.toOperands (callUser setup (runCall setup nested)) callee arguments
        callSite) := by
  apply Lifts.bind (evaluateAll_lifts (inner.operands height inside) arguments)
  intro addresses
  cases callee with
  | user function => exact callUser_lifts inner function addresses callSite
  | builtin name =>
      apply Lifts.holding
      cases found : setup.builtins.get? (setup.program.names.lookup name) with
      | none => exact Lifts.fail _
      | some builtin => exact invokeBuiltin_lifts (blind name builtin rfl found) addresses

/-! ## All nodes -/

theorem expression_lifts (inner : callers.NestedLift nested) (inside : height.Inside)
    (blind : setup.CallsOnly Builtin.Blind) {id : ExpressionId} {node : Expression} {span : Span}
    (found : setup.program.expression? id = some ⟨node, span⟩) :
    callers.Alike height
      (expression setup nested.toOperands (callUser setup (runCall setup nested)) id node span) := by
  have operands := inner.operands height inside
  cases node with
  | literal value => exact literal_lifts _ id value
  | reference name => exact (variableCopy_lifts inside name).located span
  | unary operator operand =>
      exact Lifts.bind (operands.evaluate operand) fun address =>
        (applyUnary_lifts operator address).located span
  | arithmetic first rest =>
      exact (Lifts.bind (operands.evaluate first) fun left =>
        arithmeticChain_lifts operands rest left).located span
  | comparison first rest =>
      exact (Lifts.bind (operands.evaluate first) fun left =>
        comparisonChain_lifts operands rest left).located span
  | cast source =>
      apply Lifts.bind (recordedType_lifts id)
      intro target
      exact Lifts.bind (operands.evaluate source) fun address =>
        (applyCast_lifts address target).located span
  | vector elements => exact (vector_lifts operands id elements).located span
  | dict entries => exact (dict_lifts operands id entries).located span
  | range start stop => exact range_lifts operands start stop
  | index base indices =>
      exact Lifts.bind (shareIndexed_lifts operands base indices) fun element =>
        (Lifts.copy element).holding _
  | call callee arguments =>
      refine (call_lifts inner inside span ?_).located span
      rintro name builtin rfl
      exact blind found
  | assign target value => exact (assign_lifts operands target value).located span

theorem sharedExpression_lifts (inner : callers.NestedLift nested) (inside : height.Inside)
    (id : ExpressionId) (node : Expression) (span : Span) :
    callers.Alike height (sharedExpression setup nested.toOperands id node span) := by
  have operands := inner.operands height inside
  unfold sharedExpression
  apply Lifts.located
  split
  · exact shareVariable_lifts inside _
  · exact shareIndexed_lifts operands _ _
  · exact operands.evaluate id

theorem targetExpression_lifts (inner : callers.NestedLift nested) (inside : height.Inside)
    (node : Expression) (span : Span) :
    callers.Lifts height callers.raisePlace (targetExpression setup nested.toOperands node span)
      (targetExpression setup nested.toOperands node span) := by
  unfold targetExpression
  split
  · exact (bindingPlace_lifts inside _).located span
  · exact indexedPlace_lifts (inner.operands height inside) _ _
  · exact (Lifts.fail _).located span

theorem statement_lifts (inner : callers.NestedLift nested) (inside : height.Inside)
    (id : StatementId) (node : Statement) (span : Span) :
    callers.Alike height (statement setup nested id node span) := by
  have operands := inner.operands height inside
  cases node with
  | expression value =>
      exact (Lifts.bind (operands.evaluate value) fun address => Lifts.release _).located span
  | declare name value => exact (declareVariable_lifts inside operands id name value).located span
  | block body => exact (block_lifts inside inner body).located span
  | branch test body otherwise =>
      apply Lifts.bind (condition_lifts operands test)
      intro holds
      refine Lifts.located span ?_
      split
      · exact block_lifts inside inner body
      · cases otherwise with
        | some statement => exact inner.execute height inside statement
        | none => exact Lifts.pure ()
  | forEach name iterable body => exact (forEach_lifts inside inner name iterable body).located span
  | whileLoop test body =>
      exact (Lifts.inLoop (whileFrom_lifts inside.inLoop inner test body _)).located span
  | doWhile body test =>
      exact (Lifts.inLoop (doWhileFrom_lifts inside.inLoop inner body test _)).located span
  | forever body => exact (Lifts.inLoop (foreverFrom_lifts inside.inLoop inner body _)).located span
  | breakLoop => exact (breakLoop_lifts inside).located span
  | continueLoop => exact (continueLoop_lifts inside).located span
  | giveBack value => exact (giveBack_lifts inside operands value).located span

theorem withFuel_lifts (blind : setup.CallsOnly Builtin.Blind) (fuel : Nat) :
    callers.NestedLift (Nested.withFuel setup fuel) := by
  induction fuel with
  | zero => exact ⟨fun _ _ => ⟨fun _ => Lifts.stop _, fun _ => Lifts.stop _, fun _ => Lifts.stop _⟩,
      fun _ _ _ => Lifts.stop _⟩
  | succ fuel inner =>
      refine ⟨fun height inside => ⟨fun id => ?_, fun id => ?_, fun id => ?_⟩,
        fun height inside id => ?_⟩
      · show callers.Alike height (withExpression setup id _)
        unfold withExpression
        cases found : setup.program.expression? id with
        | none => exact Lifts.stop _
        | some located => exact expression_lifts inner inside blind found
      · show callers.Alike height (withExpression setup id _)
        unfold withExpression
        cases setup.program.expression? id with
        | none => exact Lifts.stop _
        | some located => exact sharedExpression_lifts inner inside id _ _
      · show callers.Lifts height callers.raisePlace (withExpression setup id _)
          (withExpression setup id _)
        unfold withExpression
        cases setup.program.expression? id with
        | none => exact Lifts.stop _
        | some located => exact targetExpression_lifts inner inside _ _
      · show callers.Alike height (withStatement setup id _)
        unfold withStatement
        cases setup.program.statement? id with
        | none => exact Lifts.stop _
        | some located => exact statement_lifts inner inside id _ _

end Callers

end ScriptEngine
