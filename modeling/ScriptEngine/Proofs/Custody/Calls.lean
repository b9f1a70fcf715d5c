import ScriptEngine.Proofs.Custody.Statements

/-!
# Calls

A call keeps every lasting property: its frames come and go, and its result
moves from the callee over the call frame to the caller.
-/

namespace ScriptEngine

/-! ## Results of call frames -/

namespace Calls

variable {calls : Calls} {frame : CallFrame}

theorem results_push (calls : Calls) (frame : CallFrame) :
    (calls.push frame).results = (frame.result.toList : Multiset Address) + calls.results := by
  cases kept : frame.result with
  | none => simp [results, push, kept]
  | some value => simp [results, push, kept, ← Multiset.coe_add, add_comm]

/-- The calls without their innermost frame, and that frame. -/
theorem push_pop_of_current? (current : calls.current? = some frame) :
    calls.pop.push frame = calls := by
  obtain ⟨others, split⟩ := Array.back?_eq_some_iff.mp current
  obtain ⟨frames, limit⟩ := calls
  simp only at split
  subst split
  simp [pop, push]

theorem results_of_current? (current : calls.current? = some frame) :
    calls.results = (frame.result.toList : Multiset Address) + calls.pop.results := by
  rw [← results_push, push_pop_of_current? current]

theorem modifyCurrent_of_current? (current : calls.current? = some frame)
    (change : CallFrame → CallFrame) :
    calls.modifyCurrent change = calls.pop.push (change frame) := by
  obtain ⟨others, split⟩ := Array.back?_eq_some_iff.mp current
  obtain ⟨frames, limit⟩ := calls
  simp only at split
  subst split
  simp only [modifyCurrent, pop, push, depth, Array.size_push, Nat.add_sub_cancel,
    Array.pop_push, Calls.mk.injEq, and_true]
  apply Array.ext_getElem?
  intro position
  rw [Array.getElem?_modify, Array.getElem?_push, Array.getElem?_push]
  by_cases last : others.size = position
  · simp [last]
  · simp [last, Ne.symm last]

theorem results_modifyCurrent (current : calls.current? = some frame) (after : CallFrame) :
    (calls.modifyCurrent fun _ => after).results =
      (after.result.toList : Multiset Address) + calls.pop.results := by
  rw [modifyCurrent_of_current? current, results_push]

@[simp] theorem depth_push (calls : Calls) (frame : CallFrame) :
    (calls.push frame).depth = calls.depth + 1 := by
  simp [push, depth]

theorem depth_pop_of_current? (current : calls.current? = some frame) :
    calls.depth = calls.pop.depth + 1 := by
  rw [← depth_push calls.pop frame, push_pop_of_current? current]

theorem depth_modifyCurrent (calls : Calls) (change : CallFrame → CallFrame) :
    (calls.modifyCurrent change).depth = calls.depth := by
  simp [modifyCurrent, depth]

theorem current?_of_depth_pos (active : 0 < calls.depth) :
    ∃ frame, calls.current? = some frame := by
  cases found : calls.current? with
  | some frame => exact ⟨frame, rfl⟩
  | none =>
      have empty : calls.frames = #[] := Array.back?_eq_none_iff.mp found
      simp [depth, empty] at active

end Calls

namespace CallFrame

variable {licence : Licence} {property : Ledger → Prop} {ledger : Ledger} {frame : CallFrame}
  {results : Multiset Address}

/-- A frame that gets a result lets go of an earlier one. -/
theorem setResult_lasting (lasting : Ledger.Lasting licence property) {value : Address}
    {owned : Multiset Address} (kept : property ledger)
    (given : ledger.owned = value ::ₘ owned)
    (split : ledger.results = (frame.result.toList : Multiset Address) + results) :
    property { ledger with
      heap := (frame.setResult ledger.heap value).2
      results := value ::ₘ results
      owned := owned } := by
  have pinned := lasting (.keep given) kept
  unfold setResult
  cases earlier : frame.result with
  | none =>
      rw [earlier, Option.toList_none, Multiset.coe_nil, zero_add] at split
      rw [split] at pinned
      exact pinned
  | some previous =>
      rw [earlier, Option.toList_some, Multiset.coe_singleton, Multiset.singleton_add] at split
      rw [split, Multiset.cons_swap] at pinned
      have unpinned := lasting (.take rfl) pinned
      have released := lasting
        (.craft (Heap.Fashioned.releaseAll _ [previous]).makes (Multiset.singleton_add _ _).symm) unpinned
      rw [zero_add] at released
      exact released

/-- The result of a frame moves to the handles at hand. -/
theorem takeResult_lasting (lasting : Ledger.Lasting licence property) (kept : property ledger)
    (split : ledger.results = (frame.result.toList : Multiset Address) + results) :
    property { ledger with
      heap := (frame.takeResult ledger.heap).2.2
      results := results
      owned := ((frame.takeResult ledger.heap).1.toList : Multiset Address) + ledger.owned } := by
  unfold takeResult
  cases earlier : frame.result with
  | none =>
      rw [earlier, Option.toList_none, Multiset.coe_nil, zero_add] at split
      rw [← split, Option.toList_none, Multiset.coe_nil, zero_add]
      exact kept
  | some value =>
      rw [earlier, Option.toList_some, Multiset.coe_singleton, Multiset.singleton_add] at split
      rw [Option.toList_some, Multiset.coe_singleton, Multiset.singleton_add]
      exact lasting (.take split) kept

theorem discard_lasting (lasting : Ledger.Lasting licence property) (kept : property ledger)
    (split : ledger.results = (frame.result.toList : Multiset Address) + results) :
    property { ledger with heap := frame.discard ledger.heap, results := results } := by
  unfold discard
  cases earlier : frame.result with
  | none =>
      rw [earlier, Option.toList_none, Multiset.coe_nil, zero_add] at split
      rw [← split]
      exact kept
  | some value =>
      rw [earlier, Option.toList_some, Multiset.coe_singleton, Multiset.singleton_add] at split
      have unpinned := lasting (.take split) kept
      have released := lasting
        (.craft (Heap.Fashioned.releaseAll _ [value]).makes (Multiset.singleton_add _ _).symm) unpinned
      rw [zero_add] at released
      exact released

end CallFrame

namespace Evaluation

variable {licence : Licence} {property : Ledger → Prop} {depth : Nat} {setup : Setup}
  {nested : Nested}

/-! ## The result of the current call -/

theorem setResult_triple (lasting : Ledger.Lasting licence property) (active : 0 < depth)
    (value : Address) (hand : Hand) :
    Triple (Holding property depth (hand.own value)) (setResult value)
      (fun _ => Holding property depth hand) (Holding property depth hand) := by
  intro state held
  obtain ⟨kept, counted⟩ := held
  obtain ⟨frame, current⟩ := Calls.current?_of_depth_pos (counted ▸ active)
  have taken := CallFrame.setResult_lasting lasting kept rfl (Calls.results_of_current? current)
  unfold setResult
  simp only [current, State.onHeap]
  refine ⟨?_, (Calls.depth_modifyCurrent _ _).trans counted⟩
  rw [State.ledger, Calls.results_modifyCurrent current]
  exact taken

theorem giveBack_triple (lasting : Ledger.Lasting licence property)
    (sound : nested.Sound property) (value : Option ExpressionId) (hand : Hand) :
    Triple (Holding property depth hand) (giveBack nested.toOperands value)
      (fun _ => Holding property depth hand) (Holding property depth hand) := by
  cases Nat.eq_zero_or_pos depth with
  | inl outside =>
      -- no call can take the result, which is not even computed
      intro state held
      have none : state.calls.current? = none := by
        cases found : state.calls.current? with
        | none => rfl
        | some frame =>
            have counted := Calls.depth_pop_of_current? found
            rw [held.2, outside] at counted
            simp at counted
      have failed : giveBack nested.toOperands value state =
          .failure (.of .returnOutsideFunction) state := by
        simp [giveBack, resultValue, bind_run, read, none, fail]
      rw [failed]
      exact held
  | inr active =>
      apply Triple.bind (resultValue_triple (Holding.stable lasting depth)
        (sound.operands depth) value hand)
      intro address
      exact setResult_triple lasting active address hand

/-! ## Call frames -/

theorem popCall_triple (lasting : Ledger.Lasting licence property) (hand : Hand)
    {failed : State → Prop} :
    Triple (Holding property (depth + 1) hand) popCall
      (fun result? => Holding property depth (hand.ownAll result?.toList)) failed := by
  intro state held
  obtain ⟨kept, counted⟩ := held
  have active : 0 < state.calls.depth := counted ▸ Nat.succ_pos depth
  obtain ⟨frame, current⟩ := Calls.current?_of_depth_pos active
  have taken := CallFrame.takeResult_lasting lasting kept (Calls.results_of_current? current)
  have popped := Calls.depth_pop_of_current? current
  unfold popCall
  simp only [current, State.onHeap]
  exact ⟨taken, Nat.succ.inj (popped.symm.trans counted)⟩

theorem abandonCall_triple {α : Type} (lasting : Ledger.Lasting licence property)
    (failure : Failure) (hand : Hand) {after : α → State → Prop} :
    Triple (Holding property (depth + 1) hand) (abandonCall setup failure) after
      (Holding property depth hand) := by
  intro state held
  obtain ⟨kept, counted⟩ := held
  have active : 0 < state.calls.depth := counted ▸ Nat.succ_pos depth
  obtain ⟨frame, current⟩ := Calls.current?_of_depth_pos active
  have discarded := CallFrame.discard_lasting lasting kept (Calls.results_of_current? current)
  have popped := Calls.depth_pop_of_current? current
  unfold abandonCall
  simp only [current, State.onHeap]
  exact ⟨discarded, Nat.succ.inj (popped.symm.trans counted)⟩

theorem enterCall_triple (function : Function) (callSite : Span) (hand : Hand) :
    Triple (Holding property depth hand) (enterCall setup function callSite)
      (fun _ => Holding property (depth + 1) hand) (Holding property depth hand) := by
  intro state held
  obtain ⟨kept, counted⟩ := held
  unfold enterCall
  cases state.calls.exceeded? with
  | some limit => exact ⟨kept, counted⟩
  | none =>
      refine ⟨?_, by simp [counted]⟩
      rw [State.ledger, Calls.results_push, Option.toList_none, Multiset.coe_nil, zero_add]
      exact kept

/-! ## User functions -/

theorem bindParameters_triple (lasting : Ledger.Lasting licence property) {lent : Bool}
    (allowed : lent = true → licence.lends) (pairs : List (Parameter × Address)) (hand : Hand) :
    Triple (Holding property depth (hand.carryAll lent (pairs.map Prod.snd)))
      (bindParameters pairs) (fun _ => Holding property depth hand)
      (Holding property depth hand) := by
  induction pairs with
  | nil =>
      rw [List.map_nil, Hand.carryAll_nil]
      exact Triple.pure fun state held => held
  | cons pair others induction =>
      obtain ⟨parameter, value⟩ := pair
      rw [List.map_cons, Hand.carryAll_cons]
      apply Triple.bind
        (declare_triple (Holding.stable lasting depth) allowed parameter.name value _)
      intro _
      exact induction

theorem runBody_triple (lasting : Ledger.Lasting licence property)
    (sound : nested.Sound property) {lent : Bool} (allowed : lent = true → licence.lends)
    (function : Function) (arguments : List Address) (hand : Hand)
    (arity : arguments.length = function.parameters.length) :
    Triple (Holding property depth (hand.carryAll lent arguments))
      (runBody nested function arguments) (fun _ => Holding property depth hand)
      (Holding property depth hand) := by
  apply inScope_triple lasting
  have bound : Triple (Holding property depth _) _ _ _ := bindParameters_triple lasting allowed
    (function.parameters.zip arguments) hand
  rw [List.map_snd_zip arity.le] at bound
  apply Triple.bind bound
  intro _
  exact sequence_triple sound function.body.statements hand

theorem runCall_triple (lasting : Ledger.Lasting licence property)
    (sound : nested.Sound property) {lent : Bool} (allowed : lent = true → licence.lends)
    (function : Function) (arguments : List Address) (hand : Hand)
    (arity : arguments.length = function.parameters.length) :
    Triple (Holding property (depth + 1) (hand.carryAll lent arguments))
      (runCall setup nested function arguments)
      (fun result? => Holding property depth (hand.ownAll result?.toList))
      (Holding property depth hand) := by
  intro state held
  have ended := runBody_triple lasting sound allowed function arguments hand arity state held
  unfold runCall
  cases outcome : runBody nested function arguments state with
  | value result state =>
      rw [outcome] at ended
      exact popCall_triple lasting hand state ended
  | failure failure state =>
      rw [outcome] at ended
      exact abandonCall_triple lasting failure hand state ended
  | stopped reason =>
      rw [outcome] at ended
      exact ended

/-- The caller owns what the call gives back; the arguments, owned or lent,
are used up. -/
theorem callUser_triple (lasting : Ledger.Lasting licence property)
    (sound : nested.Sound property) {lent : Bool} (allowed : lent = true → licence.lends)
    (id : FunctionId) (arguments : List Address) (callSite : Span) (hand : Hand) :
    Triple (Holding property depth (hand.carryAll lent arguments))
      (callUser setup (runCall setup nested) id arguments callSite)
      (fun result => Holding property depth (hand.own result))
      (Holding property depth hand) := by
  have stable := Holding.stable lasting depth
  unfold callUser
  cases setup.program.function? id with
  | none => exact Triple.stop (by simp)
  | some function =>
      simp only
      split
      · apply Triple.bind (Triple.discard stable)
        intro _
        apply Triple.located
        exact Triple.fail fun state held => held
      · rename_i matching
        have arity : arguments.length = function.parameters.length := not_not.mp matching
        apply Triple.bind
        · apply Triple.guardingCarried stable
          exact enterCall_triple function callSite _
        · intro _
          apply Triple.bind
            (runCall_triple lasting sound allowed function arguments hand arity)
          intro result?
          cases result? with
          | some result =>
              apply Triple.pure
              intro state held
              rw [Option.toList_some, Hand.ownAll_cons, Hand.ownAll_nil] at held
              exact held
          | none =>
              rw [Option.toList_none, Hand.ownAll_nil]
              simp only
              split
              · exact Triple.newScalar stable .none
              · apply Triple.located
                exact Triple.fail fun state held => held

end Evaluation

end ScriptEngine
