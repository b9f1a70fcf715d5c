import ScriptEngine.Proofs.Control.Blame
import ScriptEngine.Proofs.Hosting.Storing

/-!
# Where failures are reported

A run reports no failure without blame, unless it slipped.  What a node raises itself
is blamed on the node or on one of its operands, whether the node is evaluated, shared,
walked as a target or executed: on the way to a target only names, keys and elements can
be missing, as every place that the walk comes to can be loaded.
-/

namespace ScriptEngine

open Evaluation

/-! ## Walks to targets -/

namespace Evaluation

variable {setup : Setup} {operands : Operands} {blames : Failure → Prop}

theorem locateForWriting_fails (container key : Address) :
    (locateForWriting container key).FailsWith fun failure => ∃ cause, failure = .of cause :=
  (FailsWith.onHeap _).bind fun result => .ofExcept result fun cause _ => ⟨cause, rfl⟩

/-- From a place that can be loaded a walk fails only as its keys do, or for one of them. -/
theorem placeChain_fails {depth : Nat} {hand : Hand} {indices : List ExpressionId} {place : Place}
    {start last : State} {failure : Failure}
    (sound : operands.Sound (Holding Ledger.Orderly depth))
    (keys : ∀ index ∈ indices, (operands.evaluate index).FailsWith blames)
    (claims : ∀ cause, ∀ index ∈ indices,
      blames ((Failure.of cause).locate (setup.program.spanOf index)))
    (standing : Standing Ledger.Orderly depth hand place start)
    (failed : placeChain setup operands place indices start = .failure failure last) :
    blames failure := by
  induction indices generalizing place start with
  | nil => simp [placeChain, pure, Evaluation.pure] at failed
  | cons index others induction =>
      obtain ⟨key, keys⟩ := List.forall_mem_cons.mp keys
      rw [placeChain] at failed
      rcases failure_bind failed with failed | ⟨next, reached, stepped, failed⟩
      · obtain ⟨container, loaded⟩ := standing.2
        obtain ⟨middle, failed, _⟩ := failure_ensuring failed
        rw [bind_run, loadPlace_of_ok loaded] at failed
        refine (FailsWith.holding ?_ [container]).blamed failed
        refine key.bind fun address => (locateForWriting_fails container address).located _ ?_
        rintro _ ⟨cause, rfl⟩
        exact claims cause index List.mem_cons_self
      · have lasting := @Ledger.Orderly.step ⟨True, True⟩
        have steps := @placeStep_standing _ _ setup _ _ lasting (fun orderly => orderly.balanced)
          sound index place hand
        have claims : ∀ cause, ∀ other ∈ others,
            blames ((Failure.of cause).locate (setup.program.spanOf other)) :=
          fun cause other member => claims cause other (List.mem_cons_of_mem _ member)
        exact induction keys claims (steps.of_value standing stepped) failed

end Evaluation

/-- What is true of all failures that come out of the operands of an expression and out of
the bodies of functions.  The target of an assignment is walked first, and so from where
the expression starts. -/
structure Nested.PassesOn (setup : Setup) (nested : Nested) (passed : Failure → Prop)
    (node : Expression) (start : State) : Prop where
  operands : nested.toOperands.FailWith passed node.operands
  targets : ∀ base failure last, node.base? = some base →
    nested.target base start = .failure failure last → passed failure
  bodies : ∀ id function, setup.program.function? id = some function →
    ∀ arguments, (runBody nested function arguments).FailsWith passed

namespace Nested.PassesOn

variable {setup : Setup} {passed : Failure → Prop} {fuel : Nat} {id : ExpressionId}
  {node : Expression} {span : Span} {start last : State} {failure : Failure}

theorem mono {nested : Nested} {passed' : Failure → Prop}
    (passes : nested.PassesOn setup passed node start)
    (implies : ∀ failure, passed failure → passed' failure) :
    nested.PassesOn setup passed' node start where
  operands := passes.operands.mono implies
  targets base failure last walked failed :=
    implies failure (passes.targets base failure last walked failed)
  bodies id function found arguments := (passes.bodies id function found arguments).mono implies

variable (passes : (Nested.withFuel setup fuel).PassesOn setup passed node start)
  (traceable : Failure.Traceable setup.program.names span passed)
  (found : setup.program.expression? id = some ⟨node, span⟩)
include passes traceable found

theorem evaluate (unlocated : setup.builtins.Unlocated)
    (failed : (Nested.withFuel setup (fuel + 1)).evaluate id start = .failure failure last) :
    failure.OfExpression setup passed id node span := by
  change withExpression setup id _ start = _ at failed
  simp only [withExpression, found] at failed
  exact passes.operands.expression traceable passes.targets
    (callUser_claimable List.mem_cons_self traceable passes.bodies) unlocated found failed

theorem share (failed : (Nested.withFuel setup (fuel + 1)).share id start = .failure failure last) :
    failure.OfShared setup passed ((Nested.withFuel setup fuel).evaluate id start) node span
      last := by
  change withExpression setup id _ start = _ at failed
  simp only [withExpression, found] at failed
  exact passes.operands.sharedExpression traceable failed

/-- The failure of a walk to a target, from where all handles are accounted for. -/
theorem target {hand : Hand} (lawful : setup.builtins.Lawful)
    (orderly : (start.ledger hand).Orderly)
    (failed : (Nested.withFuel setup (fuel + 1)).target id start = .failure failure last) :
    failure.Blamed passed (span :: node.operands.map setup.program.spanOf) := by
  change withExpression setup id _ start = _ at failed
  simp only [withExpression, found] at failed
  cases node with
  | reference name => exact ((bindingPlace_fails name).claimable.claimed traceable).blamed failed
  | index base indices =>
      rcases failure_bind failed with failed | ⟨place, walked, targeted, failed⟩
      · exact Or.inl (passes.targets base failure last rfl failed)
      · have lasting := @Ledger.Orderly.step ⟨True, True⟩
        have sound := (Nested.withFuel_sound lasting lawful.abides fuel).operands start.calls.depth
        have standing := @standing_of_target ⟨True, True⟩ _ lawful.abides _ _ _ _ _ _ orderly
          targeted
        refine placeChain_fails sound ?_ ?_ standing failed
        · intro index member
          have keys := passes.operands.evaluate index (List.mem_cons_of_mem _ member)
          exact keys.mono fun _ came => Or.inl came
        · intro cause index member
          refine Or.inr ⟨setup.program.spanOf index, ?_, rfl⟩
          exact List.mem_cons_of_mem _ (List.mem_map_of_mem (List.mem_cons_of_mem _ member))
  | _ => exact (FailsWith.claimed (raised _) traceable).blamed failed

end Nested.PassesOn

/-! ## Reports -/

/-- Failures are reported with a span, except for those of bounds of ranges and of casts
without a type.  The failure of an expression is blamed on it or on one of its operands,
unless it came out of a node inside it or of the body of a call and is blamed as it was
there; and so is the failure of a statement. -/
theorem Interpreter.failures_placed (fuel : Nat) :
    (∀ (interpreter : Interpreter) id failure last,
      interpreter.evaluate fuel id = .failure failure last →
        failure.Placed interpreter.setup) ∧
    (∀ (interpreter : Interpreter) id failure last,
      interpreter.execute fuel id = .failure failure last →
        failure.Placed interpreter.setup) ∧
    (∀ (interpreter : Interpreter) statements failure last,
      interpreter.run fuel statements = .failure failure last →
        failure.Placed interpreter.setup) ∧
    (∀ (setup : Setup) (passed : Failure → Prop) id node span start,
      setup.program.expression? id = some ⟨node, span⟩ →
      (Nested.withFuel setup fuel).PassesOn setup passed node start →
      ∀ failure last,
        (setup.builtins.Unlocated →
          (Nested.withFuel setup (fuel + 1)).evaluate id start = .failure failure last →
          failure.OfExpression setup (Failure.CameOut passed span) id node span) ∧
        ((Nested.withFuel setup (fuel + 1)).share id start = .failure failure last →
          failure.OfShared setup (Failure.CameOut passed span)
            ((Nested.withFuel setup fuel).evaluate id start) node span last) ∧
        ∀ hand, setup.builtins.Lawful → (start.ledger hand).Orderly →
          (Nested.withFuel setup (fuel + 1)).target id start = .failure failure last →
          failure.Blamed (Failure.CameOut passed span)
            (span :: node.operands.map setup.program.spanOf)) ∧
    ∀ (setup : Setup) (passed : Failure → Prop) id node span,
      setup.program.statement? id = some ⟨node, span⟩ →
      (Nested.withFuel setup fuel).FailWith passed node →
      ∀ start failure last,
        (Nested.withFuel setup (fuel + 1)).execute id start = .failure failure last →
        failure.Blamed (Failure.CameOut passed span)
          (span :: node.expressions.map setup.program.spanOf) := by
  refine ⟨?_, ?_, ?_, ?_, ?_⟩
  · intro interpreter id failure last failed
    exact (Nested.evaluate_placed interpreter.setup fuel id).blamed failed
  · intro interpreter id failure last failed
    exact (Nested.execute_placed interpreter.setup fuel id).blamed failed
  · intro interpreter statements failure last failed
    have executes := Nested.execute_placed interpreter.setup fuel
    exact (FailsWith.sequence fun id _ => executes id).blamed failed
  · intro setup passed id node span start found passes failure last
    have traceable := Failure.cameOut_traceable setup.program.names passed span
    have passes := passes.mono fun _ => @Failure.CameOut.of_passed passed span _
    refine ⟨?_, ?_, ?_⟩
    · exact fun unlocated failed => passes.evaluate traceable found unlocated failed
    · exact fun failed => passes.share traceable found failed
    · exact fun hand lawful orderly failed => passes.target traceable found lawful orderly failed
  · intro setup passed id node span found fails start failure last failed
    have traceable := Failure.cameOut_traceable setup.program.names passed span
    have fails := fails.mono fun _ => @Failure.CameOut.of_passed passed span _
    change withStatement setup id _ start = _ at failed
    simp only [withStatement, found] at failed
    exact (fails.statement traceable id).blamed failed

/-- A range from `true`, also as a statement, a variable, an element of it, and a `break`. -/
def Program.openRange : Program where
  expressions :=
    #[⟨.literal (.bool true), ⟨0, 4⟩⟩, ⟨.range ⟨0⟩ ⟨0⟩, ⟨0, 10⟩⟩, ⟨.reference ⟨1⟩, ⟨12, 13⟩⟩,
      ⟨.index ⟨2⟩ [⟨4⟩], ⟨12, 19⟩⟩, ⟨.literal (.bool true), ⟨14, 18⟩⟩]
  statements :=
    #[⟨.expression ⟨1⟩, ⟨0, 11⟩⟩, ⟨.declare ⟨1⟩ (some ⟨0⟩), ⟨20, 33⟩⟩, ⟨.breakLoop, ⟨34, 40⟩⟩]
  names := (Interner.initial.internAll ["x"]).2

/-- Nothing but that the variable is not bound comes out of the operands of the element. -/
theorem Program.openRange_passes (start : State) :
    (Nested.withFuel ⟨.openRange, .standard⟩ 1).PassesOn ⟨.openRange, .standard⟩
      (·.cause = .undefinedVariable "x") (.index ⟨2⟩ [⟨4⟩]) start := by
  let setup : Setup := ⟨.openRange, .standard⟩
  have unbound : ∀ {α : Type} {body : Evaluation α} (span : Span),
      body.FailsWith (· = .of (.undefinedVariable "x")) →
        (located span body).FailsWith (·.cause = .undefinedVariable "x") := by
    intro α body span fails
    apply fails.located
    rintro _ rfl
    rfl
  refine ⟨⟨?_, ?_⟩, ?_, ?_⟩
  · intro id member
    rcases List.mem_pair.mp member with rfl | rfl
    · exact unbound ⟨12, 13⟩ (@variableCopy_fails setup ⟨1⟩)
    · exact .literal _ ⟨4⟩ (.bool true)
  · intro id member
    rcases List.mem_pair.mp member with rfl | rfl
    · exact unbound ⟨12, 13⟩ (@shareVariable_fails setup ⟨1⟩)
    · exact unbound ⟨14, 18⟩ (.stop .outOfFuel)
  · rintro base failure last ⟨⟩ failed
    exact (unbound ⟨12, 13⟩ (@bindingPlace_fails setup ⟨1⟩)).blamed failed
  · intro id function found
    simp [Program.openRange, Program.function?] at found

/-- With `true` bound to the variable, the element is missing wherever it is looked for, and
that is blamed on the key. -/
theorem Interpreter.failures_placed_openRange :
    (∃ failure last, (create .openRange .standard .silent none).evaluate 9 ⟨1⟩ =
        .failure failure last ∧ failure.span = none ∧
      failure.Placed ⟨.openRange, .standard⟩) ∧
    (∃ failure last, (create .openRange .standard .silent none).execute 9 ⟨0⟩ =
        .failure failure last ∧ failure.span = some ⟨0, 11⟩ ∧
      failure.Placed ⟨.openRange, .standard⟩) ∧
    (∃ failure last, (create .openRange .standard .silent none).run 9 [⟨0⟩] =
        .failure failure last ∧ failure.Placed ⟨.openRange, .standard⟩) ∧
    (∃ session report, (Session.start .openRange .standard .silent none).step 9 (.run [⟨1⟩]) =
        .ok (report, session) ∧
      (∃ failure last, (Nested.withFuel ⟨.openRange, .standard⟩ 2).evaluate ⟨3⟩ session.state =
          .failure failure last ∧ failure.cause = .notIndexable "bool" ∧
        failure.OfExpression ⟨.openRange, .standard⟩
          (Failure.CameOut (·.cause = .undefinedVariable "x") ⟨12, 19⟩) ⟨3⟩ (.index ⟨2⟩ [⟨4⟩])
          ⟨12, 19⟩) ∧
      (∃ failure last, (Nested.withFuel ⟨.openRange, .standard⟩ 2).share ⟨3⟩ session.state =
          .failure failure last ∧ failure.cause = .notIndexable "bool" ∧
        failure.Blamed (Failure.CameOut (·.cause = .undefinedVariable "x") ⟨12, 19⟩)
          [⟨12, 19⟩, ⟨12, 13⟩, ⟨14, 18⟩]) ∧
      ∃ failure last, (Nested.withFuel ⟨.openRange, .standard⟩ 2).target ⟨3⟩ session.state =
          .failure failure last ∧ failure.cause = .notIndexable "bool" ∧
        failure.Blamed (Failure.CameOut (·.cause = .undefinedVariable "x") ⟨12, 19⟩)
          [⟨12, 19⟩, ⟨12, 13⟩, ⟨14, 18⟩]) ∧
    ∃ failure last, (Nested.withFuel ⟨.openRange, .standard⟩ 2).execute ⟨2⟩ {} =
        .failure failure last ∧
      failure.Blamed (Failure.CameOut (fun _ => False) ⟨34, 40⟩) [⟨34, 40⟩] := by
  obtain ⟨evaluates, executes, runs, _⟩ := failures_placed 9
  obtain ⟨_, _, _, expressions, statements⟩ := failures_placed 1
  refine ⟨?_, ?_, ?_, ?_, ?_⟩
  · obtain ⟨last, failed⟩ := Outcome.of_failure? (show
      ((create .openRange .standard .silent none).evaluate 9 ⟨1⟩).failure? =
        some ⟨.typeMismatch "int" "bool", none, none⟩ by decide +kernel)
    exact ⟨_, last, failed, rfl, evaluates _ _ _ _ failed⟩
  · obtain ⟨last, failed⟩ := Outcome.of_failure? (show
      ((create .openRange .standard .silent none).execute 9 ⟨0⟩).failure? =
        some ⟨.typeMismatch "int" "bool", some ⟨0, 11⟩, none⟩ by decide +kernel)
    exact ⟨_, last, failed, rfl, executes _ _ _ _ failed⟩
  · obtain ⟨last, failed⟩ := Outcome.of_failure? (show
      ((create .openRange .standard .silent none).run 9 [⟨0⟩]).failure? =
        some ⟨.typeMismatch "int" "bool", some ⟨0, 11⟩, none⟩ by decide +kernel)
    exact ⟨_, last, failed, runs _ _ _ _ failed⟩
  · have ran : ((Session.start .openRange .standard .silent none).step 9
        (.run [⟨1⟩])).toOption.any (fun ran =>
          ((Nested.withFuel ⟨.openRange, .standard⟩ 2).evaluate ⟨3⟩ ran.2.state).failure? =
            some ⟨.notIndexable "bool", some ⟨14, 18⟩, none⟩ &&
          ((Nested.withFuel ⟨.openRange, .standard⟩ 2).share ⟨3⟩ ran.2.state).failure? =
            some ⟨.notIndexable "bool", some ⟨14, 18⟩, none⟩ &&
          ((Nested.withFuel ⟨.openRange, .standard⟩ 2).target ⟨3⟩ ran.2.state).failure? =
            some ⟨.notIndexable "bool", some ⟨14, 18⟩, none⟩) = true := by
      decide +kernel
    obtain ⟨report, session, stepped, ran⟩ := Session.exists_step_of_any ran
    simp only [Bool.and_eq_true, decide_eq_true_eq] at ran
    obtain ⟨⟨evaluates, shares⟩, targets⟩ := ran
    have upholds := (Session.Runs.cons stepped (.nil session)).upholds Ledger.Orderly.hosted
      (by simp) (Session.start_upholds BuiltinTable.standard_lawful Ledger.Orderly.blank)
    have placed := expressions ⟨.openRange, .standard⟩ _ ⟨3⟩ _ _ session.state rfl
      (Program.openRange_passes session.state)
    obtain ⟨last, evaluates⟩ := Outcome.of_failure? evaluates
    obtain ⟨shared, shares⟩ := Outcome.of_failure? shares
    obtain ⟨walked, targets⟩ := Outcome.of_failure? targets
    refine ⟨session, report, stepped, ⟨_, last, evaluates, rfl, ?_⟩, ⟨_, shared, shares, rfl, ?_⟩,
      _, walked, targets, rfl, ?_⟩
    · exact (placed _ last).1 .standard evaluates
    · exact (placed _ shared).2.1 shares
    · exact (placed _ walked).2.2 _ BuiltinTable.standard_lawful upholds.ledger targets
  · obtain ⟨last, failed⟩ := Outcome.of_failure? (show
      ((Nested.withFuel ⟨.openRange, .standard⟩ 2).execute ⟨2⟩ {}).failure? =
        some ⟨.breakOutsideLoop, some ⟨34, 40⟩, none⟩ by decide +kernel)
    have nothing : (Nested.withFuel ⟨.openRange, .standard⟩ 1).FailWith (fun _ => False)
        .breakLoop :=
      ⟨fun _ member => absurd member List.not_mem_nil,
        fun _ member => absurd member List.not_mem_nil⟩
    exact ⟨_, last, failed, statements ⟨.openRange, .standard⟩ _ ⟨2⟩ _ _ rfl nothing {} _ last
      failed⟩

end ScriptEngine
