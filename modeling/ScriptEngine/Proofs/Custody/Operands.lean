import ScriptEngine.Proofs.Custody.Triple

/-!
# Operands

What evaluating an expression does to the handles at hand, given what
evaluating the expressions inside it does.  A value comes with a handle that
is owned, a walk to stored data with one that is shared, and a failure leaves
the handles as they were.
-/

namespace ScriptEngine

namespace Hand

theorem own_ownAll (addresses : List Address) (address : Address) (hand : Hand) :
    (hand.ownAll addresses).own address = (hand.own address).ownAll addresses := by
  simp [own, ownAll]

theorem ownAll_pair (left right : Address) (hand : Hand) :
    hand.ownAll [left, right] = (hand.own left).own right := by
  rw [ownAll_cons, ownAll_cons, ownAll_nil, own_own]

theorem ownAll_ownAll (first second : List Address) (hand : Hand) :
    (hand.ownAll second).ownAll first = hand.ownAll (first ++ second) := by
  simp [ownAll, ← Multiset.coe_add, add_assoc]

theorem ownAll_append_comm (first second : List Address) (hand : Hand) :
    hand.ownAll (first ++ second) = hand.ownAll (second ++ first) := by
  simp [ownAll, ← Multiset.coe_add, add_comm (first : Multiset Address)]

theorem shareAll_share (addresses : List Address) (address : Address) (hand : Hand) :
    (hand.share address).shareAll addresses = (hand.shareAll addresses).share address := by
  simp [share, shareAll]

theorem shareAll_comm (first second : List Address) (hand : Hand) :
    (hand.shareAll second).shareAll first = (hand.shareAll first).shareAll second := by
  simp [shareAll, add_left_comm]

/-- The handles after a computation that can fail. -/
def either {α : Type} (gained : α → Hand) (lost : Hand) : Except Cause α → Hand
  | .ok value => gained value
  | .error _ => lost

end Hand

open Evaluation

structure Operands.Sound (holds : Assertion) (operands : Operands) : Prop where
  evaluate : ∀ id hand, Triple (holds hand) (operands.evaluate id)
    (fun address => holds (hand.own address)) (holds hand)
  share : ∀ id hand, Triple (holds hand) (operands.share id)
    (fun address => holds (hand.share address)) (holds hand)
  target : ∀ id hand, Triple (holds hand) (operands.target id)
    (fun place => holds (hand.shareAll place.handles)) (holds hand)

namespace Evaluation

variable {α : Type} {licence : Licence} {holds : Assertion}

/-! ## Handles of a moment -/

namespace Triple

variable {before failed : State → Prop} {body : Evaluation α} {hands : α → Hand}
  {hand : Hand} {addresses : List Address}

theorem holding (stable : holds.Stable licence)
    (triple : Triple before body (fun result => holds ((hands result).ownAll addresses))
      (holds (hand.ownAll addresses))) :
    Triple before (Evaluation.holding addresses body) (fun result => holds (hands result))
      (holds hand) := by
  apply Triple.ensuring
  apply triple.weaken
  · intro state started
    exact started
  · intro result state ended
    exact stable.release ended
  · intro state ended
    exact stable.release ended

theorem holdingShared (stable : holds.Stable licence)
    (triple : Triple before body (fun result => holds ((hands result).shareAll addresses))
      (holds (hand.shareAll addresses))) :
    Triple before (Evaluation.holding addresses body) (fun result => holds (hands result))
      (holds hand) := by
  apply Triple.ensuring
  apply triple.weaken
  · intro state started
    exact started
  · intro result state ended
    exact stable.giveBack ended
  · intro state ended
    exact stable.giveBack ended

theorem guardingCarried (stable : holds.Stable licence) {lent : Bool}
    {after : α → State → Prop}
    (triple : Triple before body after (holds (hand.carryAll lent addresses))) :
    Triple before (Evaluation.guarding addresses body) after (holds hand) := by
  apply Triple.guarding
  apply triple.weaken
  · intro state started
    exact started
  · intro result state ended
    exact ended
  · intro state ended
    exact stable.discard ended

theorem guardingHeld (stable : holds.Stable licence) {after : α → State → Prop}
    (triple : Triple before body after (holds (hand.ownAll addresses))) :
    Triple before (Evaluation.guarding addresses body) after (holds hand) := by
  rw [← Hand.carryAll_false] at triple
  exact guardingCarried stable triple

theorem guardingShared (stable : holds.Stable licence) {after : α → State → Prop}
    (triple : Triple before body after (holds (hand.shareAll addresses))) :
    Triple before (Evaluation.guarding addresses body) after (holds hand) := by
  rw [← Hand.carryAll_true] at triple
  exact guardingCarried stable triple

theorem discard (stable : holds.Stable licence) {lent : Bool} :
    Triple (holds (hand.carryAll lent addresses)) (Evaluation.release addresses)
      (fun _ => holds hand) failed := by
  intro state held
  exact stable.discard held

theorem release (stable : holds.Stable licence) :
    Triple (holds (hand.ownAll addresses)) (Evaluation.release addresses)
      (fun _ => holds hand) failed := by
  intro state held
  exact stable.release held

theorem allocate (stable : holds.Stable licence) {given : Multiset Address}
    {action : Heap → Address × Heap}
    (makes : ∀ heap,
      Heap.Makes licence.careless heap given (action heap).2 {(action heap).1}) :
    Triple (holds { hand with owned := given + hand.owned }) (Evaluation.onHeap action)
      (fun address => holds (hand.own address)) failed := by
  intro state held
  have made := stable.craft (makes state.heap) held
  rw [Multiset.singleton_add] at made
  exact made

/-- A new value that takes nothing over. -/
theorem create (stable : holds.Stable licence) {action : Heap → Address × Heap}
    (makes : ∀ heap, Heap.Makes licence.careless heap 0 (action heap).2 {(action heap).1}) :
    Triple (holds hand) (Evaluation.onHeap action) (fun address => holds (hand.own address))
      failed := by
  apply (Triple.allocate stable makes).weaken
  · intro state held
    rw [zero_add]
    exact held
  · intro address state made
    exact made
  · intro state ended
    exact ended

theorem newScalar (stable : holds.Stable licence) (value : Scalar) :
    Triple (holds hand) (Evaluation.newScalar value) (fun address => holds (hand.own address))
      failed :=
  create stable fun heap => (Heap.Fashioned.newScalar heap value).makes

theorem copy (stable : holds.Stable licence) (source : Address) :
    Triple (holds hand) (Evaluation.copy source) (fun address => holds (hand.own address))
      failed :=
  create stable fun heap => (Heap.Fashioned.copy heap source).makes

/-- Another handle on a scalar. -/
theorem duplicate (stable : holds.Stable licence) {address : Address}
    (starts : ∀ state, before state → holds hand state ∧
      ((∃ value, state.heap.scalar? address = some value) ∨
        address ∈ (state.ledger hand).literals)) :
    Triple before (Evaluation.retain address) (fun result => holds (hand.own result))
      failed := by
  intro state started
  obtain ⟨held, scalar⟩ := starts state started
  have duplicated := stable.onHeap held (.duplicate scalar)
  exact duplicated

/-- Another handle on stored data. -/
theorem share (stable : holds.Stable licence) {address : Address}
    (starts : ∀ state, before state →
      holds hand state ∧ (state.ledger hand).Shows address) :
    Triple before (Evaluation.retain address) (fun result => holds (hand.share result))
      failed := by
  intro state started
  obtain ⟨held, shown⟩ := starts state started
  exact stable.share held shown

/-- The two ends of a computation that can fail. -/
theorem give {result : Except Cause α} :
    Triple (holds (Hand.either hands hand result)) (Evaluation.ofExcept result)
      (fun value => holds (hands value)) (holds hand) := by
  intro state ended
  cases result with
  | ok value => exact ended
  | error cause => exact ended

end Triple

variable {setup : Setup} {operands : Operands}

/-! ## Operators -/

theorem applyArithmetic_triple (stable : holds.Stable licence) (operator : ArithmeticOperator)
    (left right : Address) (hand : Hand) :
    Triple (holds (hand.ownAll [left, right])) (applyArithmetic operator left right)
      (fun result => holds (hand.own result)) (holds hand) := by
  apply Triple.holding stable
  apply Triple.bind Triple.glance
  intro result
  apply Triple.bind (Triple.ofExcept_glance fun state held => held)
  intro value
  simp only [← Hand.own_ownAll]
  exact Triple.newScalar stable value

theorem arithmeticChain_triple (stable : holds.Stable licence) (sound : operands.Sound holds)
    (rest : List (ArithmeticOperator × ExpressionId)) (left : Address) (hand : Hand) :
    Triple (holds (hand.own left)) (arithmeticChain operands left rest)
      (fun result => holds (hand.own result)) (holds hand) := by
  induction rest generalizing left with
  | nil => exact Triple.pure fun state held => held
  | cons first others induction =>
      obtain ⟨operator, operand⟩ := first
      apply Triple.bind
      · apply Triple.guardingHeld stable
        rw [Hand.ownAll_cons, Hand.ownAll_nil]
        exact sound.evaluate operand (hand.own left)
      · intro right
        rw [← Hand.ownAll_pair]
        apply Triple.bind (applyArithmetic_triple stable operator left right hand)
        intro result
        exact induction result

theorem comparisonChain_triple (stable : holds.Stable licence) (sound : operands.Sound holds)
    (rest : List (ComparisonOperator × ExpressionId)) (left : Address) (hand : Hand) :
    Triple (holds (hand.own left)) (comparisonChain operands left rest)
      (fun result => holds (hand.own result)) (holds hand) := by
  induction rest generalizing left with
  | nil =>
      apply Triple.holding stable
      simp only [← Hand.own_ownAll]
      rw [Hand.ownAll_cons, Hand.ownAll_nil]
      exact Triple.newScalar stable _
  | cons first others induction =>
      obtain ⟨operator, operand⟩ := first
      apply Triple.bind
      · apply Triple.guardingHeld stable
        rw [Hand.ownAll_cons, Hand.ownAll_nil]
        exact sound.evaluate operand (hand.own left)
      · intro right
        rw [← Hand.ownAll_pair]
        apply Triple.bind Triple.glance
        intro result
        apply Triple.bind
        · apply Triple.guardingHeld stable
          exact Triple.ofExcept_glance fun state held => held
        · intro agrees
          cases agrees with
          | true =>
              rw [Hand.ownAll_pair, Hand.own_own, ← Hand.ownAll_nil (hand.own right),
                ← Hand.ownAll_cons]
              apply Triple.bind (Triple.release stable)
              intro _
              exact induction right
          | false =>
              apply Triple.holding stable
              simp only [← Hand.own_ownAll]
              exact Triple.newScalar stable _

/-- Only numbers are their own result. -/
theorem scalar_of_unaryResult {operator : UnaryOperator} {payload : Payload}
    (same : unaryResult operator payload = .ok none) : ∃ value, payload = .scalar value := by
  unfold unaryResult at same
  split at same
  · exact ⟨_, rfl⟩
  · exact ⟨_, rfl⟩
  · exact ⟨_, rfl⟩
  · exact ⟨_, rfl⟩
  · exact ⟨_, rfl⟩
  · exact ⟨_, rfl⟩
  · simp at same

theorem applyUnary_triple (stable : holds.Stable licence) (operator : UnaryOperator)
    (operand : Address) (hand : Hand) :
    Triple (holds (hand.own operand)) (applyUnary operator operand)
      (fun result => holds (hand.own result)) (holds hand) := by
  apply Triple.holding stable
  simp only [← Hand.own_ownAll, Hand.ownAll_cons, Hand.ownAll_nil]
  apply Triple.bind Triple.read
  intro result
  apply Triple.bind (Triple.ofExcept fun state held => held.1)
  intro value
  cases value with
  | some value =>
      apply (Triple.newScalar stable value).weaken
      · intro state held
        exact held.1.1
      · intro result state made
        exact made
      · intro state ended
        exact ended
  | none =>
      apply Triple.duplicate stable
      intro state held
      obtain ⟨⟨kept, viewed⟩, same⟩ := held
      rw [viewed] at same
      split at same
      · rename_i payload found
        obtain ⟨value, rfl⟩ := scalar_of_unaryResult same
        exact ⟨kept, Or.inl ⟨value, by simp [Heap.scalar?, found]⟩⟩
      · simp at same

theorem applyCast_triple (stable : holds.Stable licence) (source : Address)
    (target : StaticType) (hand : Hand) :
    Triple (holds (hand.own source)) (applyCast source target)
      (fun result => holds (hand.own result)) (holds hand) := by
  apply Triple.holding stable
  simp only [← Hand.own_ownAll, Hand.ownAll_cons, Hand.ownAll_nil]
  apply Triple.bind Triple.glance
  intro result
  apply Triple.bind (Triple.ofExcept_glance fun state held => held)
  intro conversion
  cases conversion with
  | computed value => exact Triple.newScalar stable value
  | duplicate => exact Triple.copy stable source

/-! ## Containers and ranges -/

theorem evaluateAll_triple (stable : holds.Stable licence) (sound : operands.Sound holds)
    (ids : List ExpressionId) (hand : Hand) :
    Triple (holds hand) (evaluateAll operands ids)
      (fun addresses => holds (hand.ownAll addresses)) (holds hand) := by
  induction ids generalizing hand with
  | nil =>
      apply Triple.pure
      intro state held
      rw [Hand.ownAll_nil]
      exact held
  | cons id others induction =>
      apply Triple.bind (sound.evaluate id hand)
      intro first
      apply Triple.bind
      · apply Triple.guardingHeld stable
        rw [Hand.ownAll_cons, Hand.ownAll_nil]
        exact induction (hand.own first)
      · intro rest
        apply Triple.pure
        intro state held
        rw [Hand.ownAll_cons, Hand.own_ownAll]
        exact held

theorem evaluatePairs_triple (stable : holds.Stable licence) (sound : operands.Sound holds)
    (ids : List (ExpressionId × ExpressionId)) (hand : Hand) :
    Triple (holds hand) (evaluatePairs operands ids)
      (fun pairs => holds (hand.ownAll (Payload.dict pairs).children)) (holds hand) := by
  induction ids generalizing hand with
  | nil =>
      apply Triple.pure
      intro state held
      rw [Payload.children, List.flatMap_nil, Hand.ownAll_nil]
      exact held
  | cons entry others induction =>
      obtain ⟨key, value⟩ := entry
      apply Triple.bind (sound.evaluate key hand)
      intro keyAddress
      apply Triple.bind
      · apply Triple.guardingHeld stable
        rw [Hand.ownAll_cons, Hand.ownAll_nil]
        exact sound.evaluate value (hand.own keyAddress)
      · intro valueAddress
        apply Triple.bind
        · apply Triple.guardingHeld stable
          rw [Hand.ownAll_pair]
          exact induction ((hand.own keyAddress).own valueAddress)
        · intro rest
          apply Triple.pure
          intro state held
          rw [← Hand.ownAll_pair, Hand.ownAll_ownAll, Hand.ownAll_append_comm] at held
          exact held

theorem recordedType_triple {before : State → Prop} (id : ExpressionId) :
    Triple before (recordedType setup id) (fun _ => before) before := by
  unfold recordedType
  split
  · exact Triple.pure fun state held => held
  · exact Triple.fail fun state held => held

theorem vector_triple (stable : holds.Stable licence) (sound : operands.Sound holds)
    (id : ExpressionId) (elements : List ExpressionId) (hand : Hand) :
    Triple (holds hand) (vector setup operands id elements)
      (fun result => holds (hand.own result)) (holds hand) := by
  apply Triple.bind (recordedType_triple id)
  intro type
  apply Triple.bind (evaluateAll_triple stable sound elements hand)
  intro addresses
  exact Triple.allocate stable fun heap => (Heap.Fashioned.newVector heap _ addresses).makes

theorem dict_triple (stable : holds.Stable licence) (sound : operands.Sound holds)
    (id : ExpressionId) (entries : List (ExpressionId × ExpressionId)) (hand : Hand) :
    Triple (holds hand) (dict setup operands id entries)
      (fun result => holds (hand.own result)) (holds hand) := by
  apply Triple.bind (recordedType_triple id)
  intro type
  apply Triple.bind (evaluatePairs_triple stable sound entries hand)
  intro pairs
  exact Triple.allocate stable fun heap => (Heap.Fashioned.newDict heap _ _ pairs).makes

theorem bound_triple (stable : holds.Stable licence) (sound : operands.Sound holds)
    (id : ExpressionId) (hand : Hand) :
    Triple (holds hand) (bound operands id) (fun _ => holds hand) (holds hand) := by
  apply Triple.bind (sound.evaluate id hand)
  intro address
  apply Triple.holding stable
  rw [Hand.ownAll_cons, Hand.ownAll_nil]
  apply Triple.bind Triple.glance
  intro result
  exact Triple.ofExcept_glance fun state held => held

theorem range_triple (stable : holds.Stable licence) (sound : operands.Sound holds)
    (start stop : ExpressionId) (hand : Hand) :
    Triple (holds hand) (range operands start stop)
      (fun result => holds (hand.own result)) (holds hand) := by
  apply Triple.bind (bound_triple stable sound start hand)
  intro first
  apply Triple.bind (bound_triple stable sound stop hand)
  intro last
  exact Triple.newScalar stable _

end Evaluation

end ScriptEngine
