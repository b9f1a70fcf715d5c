import ScriptEngine.Proofs.Abreast.Operands
import ScriptEngine.Proofs.Control.Blame
import ScriptEngine.Proofs.Custody.Expressions

/-!
# Walks side by side

Names and keys that are linked lead to linked objects, or nowhere for one cause.  The
expressions inside a node are given; so is what its calls and assignments do.
-/

namespace ScriptEngine

open Evaluation

/-- What both give, or the cause for which both fail. -/
inductive Both {α : Type} (given : α → α → Prop) (failed : Prop) :
    Except Cause α → Except Cause α → Prop where
  | ok {result other : α} : given result other → Both given failed (.ok result) (.ok other)
  | error (cause : Cause) : failed → Both given failed (.error cause) (.error cause)

theorem Both.imp {α : Type} {given given' : α → α → Prop} {failed failed' : Prop}
    {result other : Except Cause α} (both : Both given failed result other)
    (gives : ∀ {value value'}, given value value' → given' value value')
    (fails : failed → failed') : Both given' failed' result other := by
  cases both with
  | ok held => exact .ok (gives held)
  | error cause held => exact .error cause (fails held)

namespace Evaluation.Abreast

variable {α : Type} {given : α → α → State → State → Prop} {failed : State → State → Prop}

theorem give (result other : Except Cause α) :
    Abreast (fun state state' => Both (fun value value' => given value value' state state')
      (failed state state') result other) (Evaluation.ofExcept result)
      (Evaluation.ofExcept other) given failed := by
  rintro state state' (held | ⟨cause, held⟩)
  · exact .value held
  · exact .failure _ held

end Evaluation.Abreast

variable {caching : Caching} {depth : Nat} {hands : Hands} {state other : State} {links : Links}

/-! ## Names and keys -/

/-- A name is bound to linked objects, or to none. -/
theorem State.Joined.lookup? (joined : State.Joined caching hands state other links) (name : Name) :
    Option.Rel links (state.lookup? name) (other.lookup? name) := by
  rw [State.lookup?, State.lookup?, ← joined.along.calls.scopeFloor_eq]
  exact joined.along.scopes.lookup? name state.calls.scopeFloor

namespace Linked

theorem releaseOne {pair : Address × Address}
    (linked : Linked caching depth (hands.own pair) state other) :
    Linked caching depth hands { state with heap := state.heap.release pair.1 }
      { other with heap := other.heap.release pair.2 } := by
  rw [← hands.ownAll_nil, ← Hands.ownAll_cons] at linked
  exact linked.release

variable {container key : Address × Address}

/-- Linked keys lead to linked elements of linked containers. -/
theorem readElement
    (linked : Linked caching depth ((hands.share container).own key) state other) :
    Both
      (fun element element' => Linked caching depth
        ((hands.share container).share (element, element'))
        { state with heap := (state.heap.readElement container.1 key.1).2 }
        { other with heap := (other.heap.readElement container.2 key.2).2 })
      (Linked caching depth (hands.share container)
        { state with heap := (state.heap.readElement container.1 key.1).2 }
        { other with heap := (other.heap.readElement container.2 key.2).2 })
      (state.heap.readElement container.1 key.1).1 (other.heap.readElement container.2 key.2).1 := by
  have found : ∀ {links},
      State.Joined caching ((hands.share container).own key) state other links →
      Heap.Linked links (state.heap.valueAt container.1 key.1)
        (other.heap.valueAt container.2 key.2) := by
    intro links joined
    apply joined.agree.valueAt_linked linked.left.sound.grounded linked.right.sound.grounded
    · exact joined.has (Hands.has_own_iff.mpr (Or.inr (Hands.has_share_iff.mpr (Or.inl rfl))))
    · exact joined.has (Hands.has_own_iff.mpr (Or.inl rfl))
  obtain ⟨links, joined⟩ := linked.joined
  have both := found joined
  unfold Heap.readElement
  cases led : state.heap.valueAt container.1 key.1 with
  | error cause =>
      cases led' : other.heap.valueAt container.2 key.2 with
      | error cause' =>
          rw [led, led'] at both
          cases both
          exact .error _ linked.releaseOne
      | ok second =>
          rw [led, led'] at both
          cases both
  | ok first =>
      cases led' : other.heap.valueAt container.2 key.2 with
      | error cause' =>
          rw [led, led'] at both
          cases both
      | ok second =>
          have shown : (state.ledger ((hands.share container).own key).left).Shows first := by
            obtain ⟨object, alive, offered⟩ := Heap.offered_of_valueAt led
            refine Or.inr (Or.inr ⟨container.1, ?_, object, alive, offered⟩)
            rw [Hands.left_own, Hands.left_share]
            exact Multiset.mem_cons_self _ _
          have shown' : (other.ledger ((hands.share container).own key).right).Shows second := by
            obtain ⟨object, alive, offered⟩ := Heap.offered_of_valueAt led'
            refine Or.inr (Or.inr ⟨container.2, ?_, object, alive, offered⟩)
            rw [Hands.right_own, Hands.right_share]
            exact Multiset.mem_cons_self _ _
          have walked := linked.share shown shown' fun joined => by
            have reached := found joined
            rw [led, led'] at reached
            cases reached with
            | ok known => exact known
          rw [Hands.share_own] at walked
          exact .ok walked.releaseOne

end Linked

namespace Evaluation

variable {setup : Setup}

theorem shareVariable_abreast (name : Name) :
    Abreast (Linked caching depth hands) (shareVariable setup name) (shareVariable setup name)
      (fun address other => Linked caching depth (hands.share (address, other)))
      (Linked caching depth hands) := by
  intro state state' linked
  obtain ⟨links, joined⟩ := linked.joined
  unfold shareVariable
  rcases cases_of_rel (joined.lookup? name) with ⟨none, none'⟩ | ⟨first, second, bound, bound', _⟩
  · rw [none, none']
    exact .failure _ linked
  · rw [bound, bound']
    apply Outcome.Abreast.value
    apply linked.share (shows_of_lookup? bound) (shows_of_lookup? bound')
    intro links joined
    have both := joined.lookup? name
    rwa [bound, bound', Option.rel_some_some] at both

theorem variableCopy_abreast (name : Name) :
    Abreast (Linked caching depth hands) (variableCopy setup name) (variableCopy setup name)
      (fun address other => Linked caching depth (hands.own (address, other)))
      (Linked caching depth hands) := by
  intro state state' linked
  obtain ⟨links, joined⟩ := linked.joined
  unfold variableCopy
  rcases cases_of_rel (joined.lookup? name) with ⟨none, none'⟩ | ⟨first, second, bound, bound', _⟩
  · rw [none, none']
    exact .failure _ linked
  · rw [bound, bound']
    apply Outcome.Abreast.value
    apply linked.create (Heap.Fashioned.copy state.heap first).makes
      (Heap.Fashioned.copy state'.heap second).makes
    intro links joined
    have both := joined.lookup? name
    rw [bound, bound', Option.rel_some_some] at both
    exact joined.agree.copy linked.left.sound.grounded linked.right.sound.grounded both

/-- The element of a container in the place of both operands. -/
theorem readElement_abreast (container key : Address × Address) :
    Abreast (Linked caching depth ((hands.share container).own key))
      (readElement container.1 key.1) (readElement container.2 key.2)
      (fun address other => Linked caching depth (hands.share (address, other)))
      (Linked caching depth hands) := by
  have walked : Abreast (Linked caching depth ((hands.share container).own key))
      (holding [container.1] (onHeap (·.readElement container.1 key.1)))
      (holding [container.2] (onHeap (·.readElement container.2 key.2)))
      (fun result other state state' => Both
        (fun element element' => Linked caching depth (hands.share (element, element')) state state')
        (Linked caching depth hands state state') result other)
      (Linked caching depth hands) := by
    apply Abreast.ensuring
    intro state state' linked
    apply Outcome.Abreast.value
    apply linked.readElement.imp
    · intro element element' walked
      rw [Hands.share_share, ← (hands.share (element, element')).shareAll_nil,
        ← Hands.shareAll_cons] at walked
      exact walked.giveBack
    · intro unchanged
      rw [← hands.shareAll_nil, ← Hands.shareAll_cons] at unchanged
      exact unchanged.giveBack
  exact walked.bind fun result other => Abreast.give result other

variable {known : ExpressionId → Prop} {operands operands' : Operands}

theorem indexChain_abreast (both : operands.Abreast caching depth known operands')
    {indices : List ExpressionId} (all : ∀ id ∈ indices, known id) (container : Address × Address) :
    Abreast (Linked caching depth (hands.share container))
      (indexChain setup operands container.1 indices)
      (indexChain setup operands' container.2 indices)
      (fun address other => Linked caching depth (hands.share (address, other)))
      (Linked caching depth hands) := by
  induction indices generalizing container with
  | nil => exact Abreast.pure fun _ _ linked => linked
  | cons index others induction =>
      rw [List.forall_mem_cons] at all
      apply Abreast.bind
      · apply Abreast.guardingShared [container]
        rw [Hands.shareAll_cons, Hands.shareAll_nil]
        exact both.evaluate all.1 (hands.share container)
      · intro key key'
        apply Abreast.bind
        · apply Abreast.located
          exact readElement_abreast container (key, key')
        · intro element element'
          exact induction all.2 (element, element')

theorem shareIndexed_abreast (both : operands.Abreast caching depth known operands')
    {base : ExpressionId} {indices : List ExpressionId} (all : ∀ id ∈ base :: indices, known id) :
    Abreast (Linked caching depth hands) (shareIndexed setup operands base indices)
      (shareIndexed setup operands' base indices)
      (fun address other => Linked caching depth (hands.share (address, other)))
      (Linked caching depth hands) := by
  rw [List.forall_mem_cons] at all
  apply Abreast.bind (both.share all.1 hands)
  intro container container'
  exact indexChain_abreast both all.2 (container, container')

/-- An expression that is there is evaluated side by side; of one that is not, neither run
knows anything. -/
theorem withExpression_abreast {α : Type} {before failed : State → State → Prop}
    {after : α → α → State → State → Prop} {id : ExpressionId}
    {action action' : Expression → Span → Evaluation α}
    (nodes : ∀ {node span}, setup.program.expression? id = some ⟨node, span⟩ →
      Abreast before (action node span) (action' node span) after failed) :
    Abreast before (withExpression setup id action) (withExpression setup id action') after
      failed := by
  unfold withExpression
  cases found : setup.program.expression? id with
  | none => exact Abreast.stop (by simp)
  | some entry => exact nodes found

/-- An expression whose operands go side by side, if its literals, calls and assignments
do. -/
theorem expression_abreast (both : operands.Abreast caching depth known operands')
    {invoke invoke' : FunctionId → List Address → Span → Evaluation Address} {id : ExpressionId}
    {node : Expression} {span : Span} (all : ∀ operand ∈ node.operands, known operand)
    (literals : ∀ value, node = .literal value →
      Abreast (Linked caching depth hands) (literal setup.program.names id value)
        (literal setup.program.names id value)
        (fun address other => Linked caching depth (hands.own (address, other)))
        (Linked caching depth hands))
    (calls : ∀ callee arguments, node = .call callee arguments →
      Abreast (Linked caching depth hands) (call setup operands invoke callee arguments span)
        (call setup operands' invoke' callee arguments span)
        (fun address other => Linked caching depth (hands.own (address, other)))
        (Linked caching depth hands))
    (assigns : ∀ target value, node = .assign target value →
      Abreast (Linked caching depth hands) (assign operands target value)
        (assign operands' target value)
        (fun address other => Linked caching depth (hands.own (address, other)))
        (Linked caching depth hands)) :
    Abreast (Linked caching depth hands) (expression setup operands invoke id node span)
      (expression setup operands' invoke' id node span)
      (fun address other => Linked caching depth (hands.own (address, other)))
      (Linked caching depth hands) := by
  cases node with
  | literal value => exact literals value rfl
  | reference name => exact (variableCopy_abreast name).located span
  | unary operator operand =>
      apply Abreast.bind (both.evaluate (all operand List.mem_cons_self) hands)
      intro address address'
      exact (applyUnary_abreast operator (address, address')).located span
  | arithmetic first rest =>
      refine Abreast.located span ?_
      apply Abreast.bind (both.evaluate (all first List.mem_cons_self) hands)
      intro left left'
      exact arithmeticChain_abreast both (fun id member => all id (List.mem_cons_of_mem _ member))
        (left, left')
  | comparison first rest =>
      refine Abreast.located span ?_
      apply Abreast.bind (both.evaluate (all first List.mem_cons_self) hands)
      intro left left'
      exact comparisonChain_abreast both (fun id member => all id (List.mem_cons_of_mem _ member))
        (left, left')
  | cast source =>
      apply Abreast.bind_same (recordedType_abreast id)
      intro target
      apply Abreast.bind (both.evaluate (all source List.mem_cons_self) hands)
      intro address address'
      exact (applyCast_abreast (address, address') target).located span
  | vector elements => exact (vector_abreast both id all).located span
  | dict entries => exact (dict_abreast both id all).located span
  | range start stop =>
      have inside : ∀ operand ∈ [start, stop], known operand := all
      exact range_abreast both (inside start (by simp)) (inside stop (by simp))
  | index base indices =>
      apply Abreast.bind (shareIndexed_abreast both all)
      intro element element'
      apply Abreast.holdingShared [(element, element')]
      simp only [Hands.shareAll_cons, Hands.shareAll_nil]
      exact Abreast.copy (Hands.has_share_iff.mpr (Or.inl rfl))
  | call callee arguments => exact (calls callee arguments rfl).located span
  | assign target value => exact (assigns target value rfl).located span

/-- What an expression names on both sides. -/
theorem sharedExpression_abreast (both : operands.Abreast caching depth known operands')
    {id : ExpressionId} (here : known id) {node : Expression} {span : Span}
    (all : ∀ operand ∈ node.operands, known operand) :
    Abreast (Linked caching depth hands) (sharedExpression setup operands id node span)
      (sharedExpression setup operands' id node span)
      (fun address other => Linked caching depth (hands.share (address, other)))
      (Linked caching depth hands) := by
  have evaluated : Abreast (Linked caching depth hands) (operands.evaluate id)
      (operands'.evaluate id)
      (fun address other => Linked caching depth (hands.share (address, other)))
      (Linked caching depth hands) := by
    apply (both.evaluate here hands).weaken
    · intro _ _ started
      exact started
    · intro _ _ _ _ ended
      exact ended.lower
    · intro _ _ ended
      exact ended
  refine Abreast.located span ?_
  cases node with
  | reference name => exact shareVariable_abreast name
  | index base indices => exact shareIndexed_abreast both all
  | _ => exact evaluated

end Evaluation

end ScriptEngine
