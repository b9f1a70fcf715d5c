import ScriptEngine.Proofs.Abreast.Builtins

/-!
# Calls side by side

Calls are entered alike, fail with the same backtrace and give linked results.
-/

namespace ScriptEngine

open Evaluation

variable {caching : Caching} {depth : Nat} {hands : Hands} {state other : State}
variable {links : Links}

/-! ## Results of calls -/

namespace CallFrame

variable {frame : CallFrame}

theorem Along.setResult {other : CallFrame} (along : frame.Along links other) (heap heap' : Heap)
    {value value' : Address} (linked : links value value') :
    (frame.setResult heap value).1.Along links (other.setResult heap' value').1 :=
  ⟨along.function, along.callSite, along.scopeBase, along.loopBase, rfl, .some linked⟩

theorem survives_setResult (frame : CallFrame) (heap : Heap) (value : Address) :
    Heap.Survives heap (frame.setResult heap value).2 := by
  have pinned := Heap.Remains.setPinned heap value true
  unfold CallFrame.setResult
  cases frame.result with
  | none => exact pinned.survives
  | some previous =>
      exact (pinned.trans ((Heap.Remains.setPinned _ previous false).trans
        (Heap.Remains.release _ previous))).survives

theorem survives_takeResult (frame : CallFrame) (heap : Heap) :
    Heap.Survives heap (frame.takeResult heap).2.2 := by
  unfold takeResult
  cases frame.result with
  | none => exact .refl heap
  | some value => exact (Heap.Remains.setPinned heap value false).survives

theorem survives_discard (frame : CallFrame) (heap : Heap) :
    Heap.Survives heap (frame.discard heap) := by
  unfold discard
  cases frame.result with
  | none => exact .refl heap
  | some value =>
      exact ((Heap.Remains.setPinned heap value false).trans
        (Heap.Remains.release _ value)).survives

theorem takeResult_fst (frame : CallFrame) (heap : Heap) :
    (frame.takeResult heap).1 = frame.result := by
  unfold takeResult
  cases kept : frame.result with
  | none => rfl
  | some value => rfl

end CallFrame

namespace Linked

/-- Both runs are in a call, or neither. -/
theorem current? (linked : Linked caching (depth + 1) hands state other) :
    ∃ frame frame', state.calls.current? = some frame ∧ other.calls.current? = some frame' := by
  have active : 0 < state.calls.depth := linked.left.2 ▸ Nat.succ_pos depth
  have active' : 0 < other.calls.depth := linked.right.2 ▸ Nat.succ_pos depth
  obtain ⟨frame, current⟩ := Calls.current?_of_depth_pos active
  obtain ⟨frame', current'⟩ := Calls.current?_of_depth_pos active'
  exact ⟨frame, frame', current, current'⟩

end Linked

theorem State.Joined.current {frame frame' : CallFrame}
    (joined : State.Joined caching hands state other links)
    (current : state.calls.current? = some frame) (current' : other.calls.current? = some frame') :
    frame.Along links frame' := by
  have both := joined.along.calls.current?
  rwa [current, current', Option.rel_some_some] at both

namespace Evaluation

variable {setup : Setup} {operands operands' : Operands} {nested nested' : Nested}

theorem setResult_agreeing (value value' : Address) :
    Agreeing caching (depth + 1) (hands.own (value, value')) hands (setResult value)
      (setResult value') := by
  intro state state' linked
  obtain ⟨frame, frame', current, current'⟩ := linked.current?
  have run : ∀ {state : State} {frame : CallFrame} {value : Address},
      state.calls.current? = some frame → setResult value state = .value () { state with
        heap := (frame.setResult state.heap value).2
        calls := state.calls.modifyCurrent fun _ => (frame.setResult state.heap value).1 } :=
    fun current => by simp only [setResult, current, State.onHeap]
  have left := linked.left
  have right := linked.right
  rw [Hands.left_own] at left
  rw [Hands.right_own] at right
  rw [run current, run current']
  have after := (setResult_triple Linked.lasting (Nat.succ_pos depth) _ _).of_value left (run current)
  have after' := (setResult_triple Linked.lasting (Nat.succ_pos depth) _ _).of_value right
    (run current')
  refine .value ⟨rfl, linked.survive after after' rfl rfl (frame.survives_setResult _ _)
    (frame'.survives_setResult _ _) fun joined => ?_⟩
  have along := joined.along
  have given := joined.has (Hands.has_own_iff.mpr (Or.inl rfl))
  refine ⟨⟨along.scopes, ?_, along.loops, along.output⟩, fun held =>
    joined.has (Hands.has_own_iff.mpr (Or.inr held))⟩
  exact along.calls.modifyCurrent ((joined.current current current').setResult _ _ given)

theorem giveBack_agreeing (both : operands.Abreast caching depth (fun _ => True) operands')
    (value : Option ExpressionId) :
    Agreeing caching depth hands hands (giveBack operands value) (giveBack operands' value) := by
  cases depth with
  | zero =>
      -- no call can take the result, which is not even computed
      intro state state' linked
      have outside : ∀ {hand : Hand} {state : State} (operands : Operands),
          Holding Ledger.Orderly 0 hand state →
            giveBack operands value state = .failure (.of .returnOutsideFunction) state := by
        intro hand state operands held
        have none : state.calls.current? = none := by
          cases found : state.calls.current? with
          | none => rfl
          | some frame => simpa [held.2] using Calls.depth_pop_of_current? found
        simp [giveBack, resultValue, bind_run, read, none, fail]
      rw [outside operands linked.left, outside operands' linked.right]
      exact .failure _ linked
  | succ depth =>
      apply Abreast.bind (resultValue_abreast both value)
      intro address address'
      exact setResult_agreeing address address'

/-! ## Call frames -/

/-- What a call leaves to its caller: a result of each run, or of neither. -/
def Returning (caching : Caching) (depth : Nat) (hands : Hands)
    (result result' : Option Address) (state state' : State) : Prop :=
  ∃ pair? : Option (Address × Address), result = pair?.map Prod.fst ∧
    result' = pair?.map Prod.snd ∧ Linked caching depth (hands.ownAll pair?.toList) state state'

theorem popCall_abreast {failed : State → State → Prop} :
    Abreast (Linked caching (depth + 1) hands) popCall popCall (Returning caching depth hands)
      failed := by
  intro state state' linked
  obtain ⟨frame, frame', current, current'⟩ := linked.current?
  have run : ∀ {state : State} {frame : CallFrame}, state.calls.current? = some frame →
      popCall state = .value frame.result { state with
        heap := (frame.takeResult state.heap).2.2, calls := state.calls.pop } := by
    intro state frame current
    rw [← frame.takeResult_fst state.heap]
    simp only [popCall, current, State.onHeap]
  have triple := fun hand =>
    @popCall_triple ⟨True, False⟩ Ledger.Orderly depth Linked.lasting hand fun _ => True
  have after := (triple hands.left).of_value linked.left (run current)
  have after' := (triple hands.right).of_value linked.right (run current')
  rw [run current, run current']
  apply Outcome.Abreast.value
  obtain ⟨links, joined⟩ := linked.joined
  have popped : ∀ {pairs : List (Address × Address)},
      pairs.map Prod.fst = frame.result.toList → pairs.map Prod.snd = frame'.result.toList →
      (∀ {links}, State.Joined caching hands state state' links →
        ∀ pair ∈ pairs, links pair.1 pair.2) →
        Linked caching depth (hands.ownAll pairs)
          { state with heap := (frame.takeResult state.heap).2.2, calls := state.calls.pop }
          { state' with heap := (frame'.takeResult state'.heap).2.2, calls := state'.calls.pop } := by
    intro pairs firsts seconds known
    rw [← firsts, ← Hands.left_ownAll] at after
    rw [← seconds, ← Hands.right_ownAll] at after'
    refine linked.survive after after' rfl rfl (frame.survives_takeResult _)
      (frame'.survives_takeResult _) fun joined => ?_
    have along := joined.along
    refine ⟨⟨along.scopes, along.calls.pop, along.loops, along.output⟩, fun held => ?_⟩
    rcases Hands.has_ownAll_iff.mp held with inside | held
    · exact known joined _ inside
    · exact joined.has held
  rcases cases_of_rel (joined.current current current').result with ⟨none, none'⟩ |
    ⟨first, second, some, some', _⟩
  · refine ⟨.none, none, none', popped ?_ ?_ (by simp)⟩
    · rw [none]
      rfl
    · rw [none']
      rfl
  · refine ⟨.some (first, second), some, some', popped ?_ ?_ fun joined => ?_⟩
    · rw [some]
      rfl
    · rw [some']
      rfl
    · have result := (joined.current current current').result
      rw [some, some', Option.rel_some_some] at result
      simpa using result

theorem abandonCall_abreast {α : Type} (failure : Failure)
    {after : α → α → State → State → Prop} :
    Abreast (Linked caching (depth + 1) hands) (abandonCall setup failure)
      (abandonCall setup failure) after (Linked caching depth hands) := by
  intro state state' linked
  obtain ⟨frame, frame', current, current'⟩ := linked.current?
  have run : ∀ {state : State} {frame : CallFrame}, state.calls.current? = some frame →
      abandonCall (α := α) setup failure state =
        .failure (state.calls.attach setup.program.names failure)
          { state with heap := frame.discard state.heap, calls := state.calls.pop } :=
    fun current => by simp only [abandonCall, current, State.onHeap]
  have triple := fun hand => @abandonCall_triple ⟨True, False⟩ Ledger.Orderly depth setup α
    Linked.lasting failure hand fun _ _ => True
  have left := (triple hands.left).of_failure linked.left (run current)
  have right := (triple hands.right).of_failure linked.right (run current')
  obtain ⟨links, joined⟩ := linked.joined
  rw [run current, run current', joined.along.calls.attach_eq]
  refine .failure _ (linked.survive left right rfl rfl (frame.survives_discard _)
    (frame'.survives_discard _) fun joined => ?_)
  have along := joined.along
  exact ⟨⟨along.scopes, along.calls.pop, along.loops, along.output⟩, joined.has⟩

theorem enterCall_abreast (function : Function) (callSite : Span) :
    Abreast (Linked caching depth hands) (enterCall setup function callSite)
      (enterCall setup function callSite) (fun _ _ => Linked caching (depth + 1) hands)
      (Linked caching depth hands) := by
  intro state state' linked
  obtain ⟨links, joined⟩ := linked.joined
  have along := joined.along
  have triple := fun hand => @enterCall_triple Ledger.Orderly depth setup function callSite hand
  cases exceeded : state.calls.exceeded? with
  | some limit =>
      have exceeded' := along.calls.exceeded?_eq.symm.trans exceeded
      simp only [enterCall, exceeded, exceeded', along.calls.attach_eq]
      exact .failure _ linked
  | none =>
      have exceeded' := along.calls.exceeded?_eq.symm.trans exceeded
      have run : ∀ {state : State}, state.calls.exceeded? = none →
          enterCall setup function callSite state = .value () { state with
            calls := state.calls.push {
              function := function.name
              callSite := callSite
              scopeBase := state.scopes.depth
              loopBase := state.loops.depth } } :=
        fun exceeded => by simp only [enterCall, exceeded]
      rw [run exceeded, run exceeded']
      have after := (triple hands.left).of_value linked.left (run exceeded)
      have after' := (triple hands.right).of_value linked.right (run exceeded')
      refine .value (linked.survive after after' rfl rfl (.refl _) (.refl _) fun joined => ?_)
      have along := joined.along
      refine ⟨⟨along.scopes, along.calls.push ?_, along.loops, along.output⟩, joined.has⟩
      exact ⟨rfl, rfl, along.scopes.depth_eq, congrArg Loops.depth along.loops, rfl, .none⟩

/-! ## User functions -/

variable {pairs : List (Address × Address)}

theorem bindParameters_agreeing {parameters : List Parameter}
    (arity : pairs.length = parameters.length) :
    Agreeing caching depth (hands.shareAll pairs) hands
      (bindParameters (parameters.zip (pairs.map Prod.fst)))
      (bindParameters (parameters.zip (pairs.map Prod.snd))) := by
  induction parameters generalizing pairs with
  | nil =>
      rw [List.length_eq_zero_iff.mp arity, Hands.shareAll_nil]
      exact Agreeing.pure ()
  | cons parameter parameters induction =>
      cases pairs with
      | nil => simp at arity
      | cons pair pairs =>
          rw [Hands.shareAll_cons]
          apply Abreast.bind_same (declare_abreast parameter.name pair.1 pair.2)
          intro _
          exact induction (Nat.succ.inj arity)

theorem runBody_agreeing (both : nested.Abreast caching nested') (function : Function)
    (arity : pairs.length = function.parameters.length) :
    Agreeing caching depth (hands.shareAll pairs) hands
      (runBody nested function (pairs.map Prod.fst))
      (runBody nested' function (pairs.map Prod.snd)) := by
  apply inScope_agreeing
  apply Abreast.bind_same (bindParameters_agreeing arity)
  intro _
  exact sequence_agreeing both function.body.statements

theorem runCall_abreast (both : nested.Abreast caching nested') (function : Function)
    (arity : pairs.length = function.parameters.length) :
    Abreast (Linked caching (depth + 1) (hands.shareAll pairs))
      (runCall setup nested function (pairs.map Prod.fst))
      (runCall setup nested' function (pairs.map Prod.snd)) (Returning caching depth hands)
      (Linked caching depth hands) := by
  intro state state' linked
  have ended := runBody_agreeing both function arity state state' linked
  unfold runCall
  generalize runBody nested function (pairs.map Prod.fst) state = one,
    runBody nested' function (pairs.map Prod.snd) state' = another at ended ⊢
  cases ended with
  | value held => exact popCall_abreast _ _ held.2
  | failure failure held => exact abandonCall_abreast failure _ _ held
  | stopped uninterrupted => exact .stopped uninterrupted

/-- The callers own what the calls give back; the arguments are used up. -/
theorem callUser_abreast (both : nested.Abreast caching nested') (id : FunctionId)
    (callSite : Span) :
    Abreast (Linked caching depth (hands.shareAll pairs))
      (callUser setup (runCall setup nested) id (pairs.map Prod.fst) callSite)
      (callUser setup (runCall setup nested') id (pairs.map Prod.snd) callSite)
      (fun address other => Linked caching depth (hands.own (address, other)))
      (Linked caching depth hands) := by
  unfold callUser
  cases setup.program.function? id with
  | none => exact Abreast.stop (by simp)
  | some function =>
      simp only [List.length_map]
      split
      · have released : Abreast (Linked caching depth (hands.shareAll pairs))
            (release (pairs.map Prod.fst)) (release (pairs.map Prod.snd))
            (fun _ _ => Linked caching depth hands) (Linked caching depth hands) :=
          fun _ _ linked => .value linked.giveBack
        apply released.bind
        intro _ _
        exact (Abreast.fail _ fun _ _ linked => linked).located callSite
      · rename_i matching
        apply Abreast.bind
        · apply Abreast.guardingShared pairs
          exact enterCall_abreast function callSite
        · intro _ _
          apply Abreast.bind_joint (runCall_abreast both function (not_not.mp matching))
          intro pair?
          cases pair? with
          | some pair =>
              apply Abreast.pure
              intro state state' linked
              rwa [Option.toList_some, Hands.ownAll_cons, Hands.ownAll_nil] at linked
          | none =>
              rw [Option.toList_none, Hands.ownAll_nil]
              simp only [Option.map_none]
              split
              · exact Abreast.newScalar .none
              · exact (Abreast.fail _ fun _ _ linked => linked).located callSite

end Evaluation

/-! ## Built-in functions -/

/-- Every built-in function that is called satisfies a condition. -/
def Setup.CallsOnly (setup : Setup) (allowed : Builtin → Prop) : Prop :=
  ∀ {id name arguments span builtin},
    setup.program.expression? id = some ⟨.call (.builtin name) arguments, span⟩ →
      setup.builtins.get? (setup.program.names.lookup name) = some builtin → allowed builtin

/-- Every call of a built-in function is one of `print` or `println`. -/
def Setup.OnlyPrints (setup : Setup) : Prop :=
  ∀ {id name arguments span builtin},
    setup.program.expression? id = some ⟨.call (.builtin name) arguments, span⟩ →
      setup.builtins.get? (setup.program.names.lookup name) = some builtin →
        builtin = .print ∨ builtin = .println

/-- Where there are no other functions, no others are called. -/
theorem Setup.onlyPrints_standard (program : Program) : OnlyPrints ⟨program, .standard⟩ := by
  intro id name arguments span builtin _ found
  have member := List.mem_of_find?_eq_some found
  simpa [BuiltinTable.standard, BuiltinTable.register, BuiltinTable.empty, Builtin.print,
    Builtin.println, or_comm] using member

theorem Builtin.impartial_of_prints {builtin : Builtin} {loose : Prop}
    (prints : builtin = .print ∨ builtin = .println) : builtin.Impartial loose := by
  rcases prints with rfl | rfl
  · exact Builtin.print_impartial
  · exact Builtin.println_impartial

theorem Linked.lowerAll {pairs : List (Address × Address)}
    (linked : Linked caching depth (hands.ownAll pairs) state other) :
    Linked caching depth (hands.shareAll pairs) state other := by
  induction pairs generalizing hands with
  | nil => simpa using linked
  | cons pair pairs induction =>
      rw [Hands.ownAll_cons] at linked
      have lowered := linked.lower
      rw [← Hands.ownAll_share] at lowered
      rw [Hands.shareAll_cons, ← Hands.shareAll_share]
      exact induction lowered

namespace Evaluation

variable {setup : Setup} {operands operands' : Operands} {nested nested' : Nested}

/-- A call that is one of an impartial function or of a user function. -/
theorem call_abreast (both : nested.Abreast caching nested') {callee : Callee}
    {arguments : List ExpressionId} (callSite : Span)
    (impartial : ∀ name builtin, callee = .builtin name →
      setup.builtins.get? (setup.program.names.lookup name) = some builtin →
        builtin.Impartial caching.Loose) :
    Abreast (Linked caching depth hands)
      (call setup nested.toOperands (callUser setup (runCall setup nested)) callee arguments callSite)
      (call setup nested'.toOperands (callUser setup (runCall setup nested')) callee arguments
        callSite)
      (fun address other => Linked caching depth (hands.own (address, other)))
      (Linked caching depth hands) := by
  apply Abreast.bind_joint (evaluateAll_abreast (both.operands depth) fun _ _ => trivial)
  intro pairs
  cases callee with
  | builtin name => exact callBuiltin_abreast fun builtin => impartial name builtin rfl
  | user function =>
      intro state state' linked
      exact callUser_abreast both function callSite state state' linked.lowerAll

/-! ## All statements -/

theorem statement_agreeing (both : nested.Abreast caching nested') (id : StatementId)
    (node : Statement) (span : Span) :
    Agreeing caching depth hands hands (statement setup nested id node span)
      (statement setup nested' id node span) := by
  have operands := both.operands depth
  cases node with
  | expression value =>
      refine Abreast.located span ?_
      apply Abreast.bind (operands.evaluate trivial hands)
      intro address address' state state' linked
      rw [← hands.ownAll_nil, ← Hands.ownAll_cons] at linked
      exact .value ⟨rfl, linked.release⟩
  | declare name value => exact (declareVariable_agreeing operands id name value).located span
  | block body => exact (block_agreeing both body).located span
  | branch test body otherwise =>
      apply Abreast.bind_same (condition_agreeing operands test)
      intro enters
      refine Abreast.located span ?_
      split
      · exact block_agreeing both body
      · split
        · exact both.execute _ depth hands
        · exact Agreeing.pure ()
  | forEach name iterable body => exact (forEach_agreeing both name iterable body).located span
  | whileLoop test body =>
      refine Abreast.located span (inLoop_agreeing ?_)
      rw [both.iterations]
      exact whileFrom_agreeing both test body _
  | doWhile body test =>
      refine Abreast.located span (inLoop_agreeing ?_)
      rw [both.iterations]
      exact doWhileFrom_agreeing both body test _
  | forever body =>
      refine Abreast.located span (inLoop_agreeing ?_)
      rw [both.iterations]
      exact foreverFrom_agreeing both body _
  | breakLoop => exact breakLoop_agreeing.located span
  | continueLoop => exact continueLoop_agreeing.located span
  | giveBack value => exact (giveBack_agreeing operands value).located span

theorem withStatement_agreeing (both : nested.Abreast caching nested') (id : StatementId) :
    Agreeing caching depth hands hands
      (withStatement setup id fun node span => statement setup nested id node span)
      (withStatement setup id fun node span => statement setup nested' id node span) := by
  unfold withStatement
  cases setup.program.statement? id with
  | none => exact Abreast.stop (by simp)
  | some entry => exact statement_agreeing both id entry.node entry.span

end Evaluation

namespace Nested

theorem exhausted_abreast (caching : Caching) : exhausted.Abreast caching exhausted where
  operands _ := ⟨fun _ _ => Abreast.stop (by simp), fun _ _ => Abreast.stop (by simp)⟩
  targets _ := fun _ _ => Abreast.stop (by simp)
  execute _ _ _ := Abreast.stop (by simp)
  iterations := rfl

end Nested

end ScriptEngine
