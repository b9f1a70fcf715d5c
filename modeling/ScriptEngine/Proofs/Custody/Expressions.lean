import Mathlib.Data.List.ReduceOption
import ScriptEngine.Proofs.Custody.Builtins
import ScriptEngine.Proofs.Custody.Walks

/-!
# Expressions

Every expression keeps a stable assertion, whatever a call of a user function
does, as long as that keeps it too.
-/

namespace ScriptEngine

/-! ## Literals -/

namespace State

variable {entries : Array (Option Address)} {position : Nat}

private theorem reduceOption_set {entries : List (Option Address)} {position : Nat}
    (free : entries[position]? = some none) (address : Address) :
    ((entries.set position (some address)).reduceOption : Multiset Address) =
      address ::ₘ (entries.reduceOption : Multiset Address) := by
  induction entries generalizing position with
  | nil => simp at free
  | cons first others induction =>
      cases position with
      | zero =>
          simp only [List.getElem?_cons_zero, Option.some.injEq] at free
          subst free
          simp
      | succ position =>
          simp only [List.getElem?_cons_succ] at free
          have rest := induction free
          cases first with
          | none => simpa using rest
          | some earlier =>
              simp only [List.set_cons_succ, List.reduceOption_cons_of_some, ← Multiset.cons_coe]
              rw [rest, Multiset.cons_swap]

/-- A recorded literal is one more. -/
theorem reduceOption_record (free : entries[position]?.join = none) (address : Address) :
    ((record entries position address).toList.reduceOption : Multiset Address) =
      address ::ₘ (entries.toList.reduceOption : Multiset Address) := by
  unfold record
  split
  · rename_i inside
    have empty : entries.toList[position]? = some none := by
      rw [Array.getElem?_toList]
      cases found : entries[position]? with
      | none =>
          have beyond := Array.getElem?_eq_none_iff.mp found
          omega
      | some entry =>
          rw [found] at free
          cases entry with
          | none => rfl
          | some earlier => simp at free
    simpa using reduceOption_set empty address
  · rename_i outside
    have padding : (List.replicate (position - entries.size)
        (none : Option Address)).reduceOption = [] := by
      simp [List.reduceOption]
    simp [List.reduceOption_append, padding]

theorem mem_literals_of_literal? {state : State} {id : ExpressionId} {address : Address}
    (found : state.literal? id = some address) (hand : Hand) :
    address ∈ (state.ledger hand).literals := by
  have entry := Option.join_eq_some_iff.mp found
  rw [ledger, Multiset.mem_coe, List.reduceOption_mem_iff]
  exact Array.mem_toList_iff.mpr (Array.mem_of_getElem? entry)

theorem ledger_keepLiteral {state : State} {id : ExpressionId}
    (missing : state.literal? id = none) (value : Scalar) (hand : Hand) :
    (state.keepLiteral id value).2.ledger (hand.own (state.keepLiteral id value).1) =
      { state.ledger hand with
        heap := (state.heap.newScalar value).2.retain (state.heap.newScalar value).1
        literals := (state.heap.newScalar value).1 ::ₘ (state.ledger hand).literals
        owned := (state.heap.newScalar value).1 ::ₘ (state.ledger hand).owned } := by
  have recorded := reduceOption_record missing (state.heap.newScalar value).1
  simp only [ledger, ← recorded]
  rfl

end State

/-- A literal is kept, and handed out as well. -/
theorem Assertion.Stable.keepLiteral {licence : Licence} {holds : Assertion} {hand : Hand}
    {state : State} (stable : holds.Stable licence) (kept : holds hand state) {id : ExpressionId}
    (missing : state.literal? id = none) (value : Scalar) :
    holds (hand.own (state.keepLiteral id value).1) (state.keepLiteral id value).2 := by
  apply stable.step kept
  · rw [State.ledger_keepLiteral missing]
    exact .cache value
  · exact ⟨rfl, rfl, rfl⟩

namespace Evaluation

variable {licence : Licence} {holds : Assertion} {setup : Setup} {operands : Operands}

theorem literal_triple (stable : holds.Stable licence) (names : Interner) (id : ExpressionId)
    (value : Literal) (hand : Hand) :
    Triple (holds hand) (literal names id value) (fun address => holds (hand.own address))
      (holds hand) := by
  intro state held
  unfold literal
  cases found : state.literal? id with
  | some address =>
      have duplicated := stable.onHeap held
        (.duplicate (Or.inr (State.mem_literals_of_literal? found hand)))
      exact duplicated
  | none =>
      exact stable.keepLiteral held found (value.scalar names)

/-! ## Calls -/

theorem invokeBuiltin_triple (stable : holds.Stable licence) {builtin : Builtin}
    (abides : builtin.Abides licence.careless) (arguments : List Address) (hand : Hand) :
    Triple (holds (hand.ownAll arguments)) (invokeBuiltin builtin arguments)
      (fun result state => holds (hand.own result) (state.releaseAll arguments))
      (fun state => holds hand (state.releaseAll arguments)) := by
  intro state held
  have outcome := Builtin.invoke_abides abides arguments state.heap state.output
  unfold invokeBuiltin
  simp only
  generalize builtin.invoke arguments state.heap state.output = result at outcome
  obtain ⟨value, heap, output⟩ := result
  have printed := stable.settle output (Heap.Fashioned.refl state.heap 0).makes held
  cases value with
  | ok value =>
      rcases outcome with made | ⟨within, same⟩
      · have created := @Assertion.Stable.create licence holds (hand.ownAll arguments)
          { state with output := output } stable heap value made printed
        rw [Hand.own_ownAll] at created
        have released := stable.release created
        exact released
      · simp only at same
        subst same
        have handed := stable.onHeap printed (.handBack rfl within)
        exact handed
  | error failure =>
      have settled := stable.settle output outcome held
      have released := stable.release settled
      exact released

theorem callBuiltin_triple (stable : holds.Stable licence)
    (abides : setup.builtins.Abides licence.careless) (name : Name) (arguments : List Address) (hand : Hand) :
    Triple (holds (hand.ownAll arguments)) (callBuiltin setup name arguments)
      (fun result => holds (hand.own result)) (holds hand) := by
  unfold callBuiltin
  cases found : setup.builtins.get? (setup.program.names.lookup name) with
  | some builtin =>
      simp only [found]
      apply Triple.ensuring
      exact invokeBuiltin_triple stable (abides.of_get? found) arguments hand
  | none =>
      simp only [found]
      apply Triple.holding stable
      exact Triple.fail fun state held => held

/-- What calls may do with the handles they are given. -/
structure CallsSound (holds : Assertion) (setup : Setup)
    (invoke : FunctionId → List Address → Span → Evaluation Address) : Prop where
  builtin : ∀ name arguments hand,
    Triple (holds (hand.ownAll arguments)) (callBuiltin setup name arguments)
      (fun result => holds (hand.own result)) (holds hand)
  user : ∀ function arguments callSite hand,
    Triple (holds (hand.ownAll arguments)) (invoke function arguments callSite)
      (fun result => holds (hand.own result)) (holds hand)

variable {invoke : FunctionId → List Address → Span → Evaluation Address}

theorem call_triple (stable : holds.Stable licence) (sound : operands.Sound holds)
    (calls : CallsSound holds setup invoke) (callee : Callee)
    (arguments : List ExpressionId) (callSite : Span) (hand : Hand) :
    Triple (holds hand) (call setup operands invoke callee arguments callSite)
      (fun result => holds (hand.own result)) (holds hand) := by
  apply Triple.bind (evaluateAll_triple stable sound arguments hand)
  intro addresses
  cases callee with
  | builtin name => exact calls.builtin name addresses hand
  | user function => exact calls.user function addresses callSite hand

/-! ## All expressions -/

theorem expression_triple (stable : holds.Stable licence) (sound : operands.Sound holds)
    (calls : CallsSound holds setup invoke) (id : ExpressionId) (node : Expression) (span : Span) (hand : Hand) :
    Triple (holds hand) (expression setup operands invoke id node span)
      (fun result => holds (hand.own result)) (holds hand) := by
  cases node with
  | literal value => exact literal_triple stable setup.program.names id value hand
  | reference name => exact Triple.located (variableCopy_triple stable name hand)
  | unary operator operand =>
      apply Triple.bind (sound.evaluate operand hand)
      intro address
      exact Triple.located (applyUnary_triple stable operator address hand)
  | arithmetic first rest =>
      apply Triple.located
      apply Triple.bind (sound.evaluate first hand)
      intro left
      exact arithmeticChain_triple stable sound rest left hand
  | comparison first rest =>
      apply Triple.located
      apply Triple.bind (sound.evaluate first hand)
      intro left
      exact comparisonChain_triple stable sound rest left hand
  | cast source =>
      apply Triple.bind (recordedType_triple id)
      intro target
      apply Triple.bind (sound.evaluate source hand)
      intro address
      exact Triple.located (applyCast_triple stable address target hand)
  | vector elements => exact Triple.located (vector_triple stable sound id elements hand)
  | dict entries => exact Triple.located (dict_triple stable sound id entries hand)
  | range start stop => exact range_triple stable sound start stop hand
  | index base indices =>
      apply Triple.bind (shareIndexed_triple stable sound base indices hand)
      intro element
      apply Triple.holdingShared stable
      rw [Hand.shareAll_cons, Hand.shareAll_nil]
      simp only [Hand.shareAll_cons, Hand.shareAll_nil, Hand.share_own]
      exact Triple.copy stable element
  | call callee arguments =>
      exact Triple.located (call_triple stable sound calls callee arguments span hand)
  | assign target value => exact Triple.located (assign_triple stable sound target value hand)

theorem sharedExpression_triple (stable : holds.Stable licence) (sound : operands.Sound holds)
    (id : ExpressionId) (node : Expression) (span : Span) (hand : Hand) :
    Triple (holds hand) (sharedExpression setup operands id node span)
      (fun result => holds (hand.share result)) (holds hand) := by
  have computed : Triple (holds hand) (operands.evaluate id)
      (fun result => holds (hand.share result)) (holds hand) := by
    apply (sound.evaluate id hand).weaken
    · intro state held
      exact held
    · intro result state held
      exact stable.lower held
    · intro state held
      exact held
  apply Triple.located
  split
  · exact shareVariable_triple stable _ hand
  · exact shareIndexed_triple stable sound _ _ hand
  · exact computed

theorem targetExpression_triple (stable : holds.Stable licence) (sound : operands.Sound holds)
    (node : Expression) (span : Span) (hand : Hand) :
    Triple (holds hand) (targetExpression setup operands node span)
      (fun place => holds (hand.shareAll place.handles)) (holds hand) := by
  unfold targetExpression
  split
  · exact Triple.located (bindingPlace_triple _ hand)
  · exact indexedPlace_triple stable sound _ _ hand
  · apply Triple.located
    exact Triple.fail fun state held => held

/-! ## Values that statements need -/

theorem condition_triple (stable : holds.Stable licence) (sound : operands.Sound holds)
    (id : ExpressionId) (hand : Hand) :
    Triple (holds hand) (condition setup operands id) (fun _ => holds hand) (holds hand) := by
  apply Triple.bind (sound.evaluate id hand)
  intro address
  apply Triple.holding stable
  rw [Hand.ownAll_cons, Hand.ownAll_nil]
  apply Triple.bind Triple.glance
  intro result
  apply Triple.located
  exact Triple.ofExcept_glance fun state held => held

theorem initialValue_triple (stable : holds.Stable licence) (sound : operands.Sound holds)
    (id : StatementId) (value : Option ExpressionId) (hand : Hand) :
    Triple (holds hand) (initialValue setup operands id value)
      (fun address => holds (hand.own address)) (holds hand) := by
  cases value with
  | some value => exact sound.evaluate value hand
  | none =>
      simp only [initialValue]
      split
      · exact Triple.create stable fun heap => (Heap.Fashioned.newDefault heap _).makes
      · exact Triple.fail fun state held => held

/-- A name takes over a handle, which may be lent, and the object that it
named before is let go. -/
theorem declare_triple (stable : holds.Stable licence) {lent : Bool}
    (allowed : lent = true → licence.lends) (name : Name) (value : Address) (hand : Hand)
    {failed : State → Prop} :
    Triple (holds (hand.carry lent value)) (declare name value) (fun _ => holds hand)
      failed := by
  intro state held
  have inside : state.scopes.nested.size < state.scopes.depth := Nat.lt_succ_self _
  have bound := @Ledger.Step.bind licence (state.ledger (hand.carry lent value)) hand lent
    state.scopes.nested.size name value _ inside rfl rfl allowed
  have named : holds (hand.shareAll (state.scopes.get? state.scopes.nested.size name).toList)
      { state with
        heap := (state.heap.enterSlot value).leaveSlots
          (state.scopes.get? state.scopes.nested.size name).toList
        scopes := state.scopes.modifyFrame state.scopes.nested.size (·.put name value) } :=
    stable.step held bound ⟨rfl, rfl, Scopes.skips_put _ _ _ _⟩
  exact stable.giveBack named

theorem declareVariable_triple (stable : holds.Stable licence) (sound : operands.Sound holds)
    (id : StatementId) (name : Name) (value : Option ExpressionId) (hand : Hand) :
    Triple (holds hand) (declareVariable setup operands id name value) (fun _ => holds hand)
      (holds hand) := by
  apply Triple.bind (initialValue_triple stable sound id value hand)
  intro address
  rw [← Hand.carry_false]
  exact declare_triple stable (by simp) name address hand

theorem resultValue_triple (stable : holds.Stable licence) (sound : operands.Sound holds)
    (value : Option ExpressionId) (hand : Hand) :
    Triple (holds hand) (resultValue operands value) (fun address => holds (hand.own address))
      (holds hand) := by
  apply Triple.bind Triple.glance
  intro outside
  split
  · exact Triple.fail fun state held => held
  · split
    · exact sound.evaluate _ hand
    · exact Triple.newScalar stable .none

end Evaluation

end ScriptEngine
