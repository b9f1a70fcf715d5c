import ScriptEngine.Proofs.Custody.Expressions

/-!
# Statements

Statements keep every lasting property of the ledger, and the number of
active calls.  Between statements they own nothing.
-/

namespace ScriptEngine

open Evaluation

/-- A property of the ledger, at a number of active calls. -/
def Holding (property : Ledger → Prop) (depth : Nat) : Assertion :=
  fun hand state => property (state.ledger hand) ∧ state.calls.depth = depth

variable {licence : Licence} {property : Ledger → Prop} {depth : Nat}

namespace Holding

variable {hand hand' : Hand} {state state' : State}

theorem step (lasting : Ledger.Lasting licence property) (held : Holding property depth hand state)
    (step : Ledger.Step licence (state.ledger hand) (state'.ledger hand'))
    (calls : state'.calls.depth = state.calls.depth) : Holding property depth hand' state' :=
  ⟨lasting step held.1, calls.trans held.2⟩

theorem stable (lasting : Ledger.Lasting licence property) (depth : Nat) :
    (Holding property depth).Stable licence where
  step held step control := held.step lasting step (by rw [control.calls])

/-- The bindings of the innermost frame give their handles back. -/
theorem pop (lasting : Ledger.Lasting licence property) (held : Holding property depth hand state) :
    Holding property depth hand
      (state.onStorage fun scopes heap => ((), scopes.pop heap)).2 := by
  simp only [State.onStorage]
  cases last : state.scopes.nested.back? with
  | none =>
      rw [Scopes.pop_of_root last]
      exact held
  | some frame =>
      rw [Scopes.pop_of_back? last]
      have left : Holding property depth (hand.shareAll frame.values)
          { state with
            heap := state.heap.leaveSlots frame.values
            scopes := state.scopes.dropFrame } :=
        held.step lasting (.pop last) rfl
      exact (stable lasting depth).giveBack left

end Holding

structure Nested.Sound (property : Ledger → Prop) (nested : Nested) : Prop where
  operands : ∀ depth, nested.toOperands.Sound (Holding property depth)
  execute : ∀ id depth hand, Triple (Holding property depth hand) (nested.execute id)
    (fun _ => Holding property depth hand) (Holding property depth hand)

/-! ## Items of loops -/

namespace Heap

/-- The pair that a loop binds for an entry of a dict: copies of its key and its value. -/
def pairUp (heap : Heap) (entry : Address × Address) (type : StaticType) : Address × Heap :=
  ((heap.copy entry.1).2.copy entry.2).2.newVector type
    [(heap.copy entry.1).1, ((heap.copy entry.1).2.copy entry.2).1]

theorem Fashioned.pairUp (heap : Heap) (entry : Address × Address) (type : StaticType) :
    Fashioned heap 0 (heap.pairUp entry type).2 {(heap.pairUp entry type).1} := by
  have parts := (Fashioned.copy heap entry.1).append (Fashioned.copy (heap.copy entry.1).2 entry.2)
  rw [add_comm, Multiset.singleton_add, ← Multiset.coe_singleton, Multiset.cons_coe] at parts
  exact parts.trans (.newVector _ type _)

end Heap

namespace Items

variable {heap : Heap} {source : Address} {position : Nat} {start stop : Int64}

theorem next?_integers_of_lt (more : start.toInt < stop.toInt) (heap : Heap) :
    (integers start stop).next? heap =
      (some ((heap.newScalar (.int start)).1, integers (start + 1) stop),
        (heap.newScalar (.int start)).2) := by
  simp only [next?, if_pos more]

theorem next?_integers_of_not_lt (done : ¬ start.toInt < stop.toInt) (heap : Heap) :
    (integers start stop).next? heap = (none, heap) := by
  simp only [next?, if_neg done]

theorem next?_elements_of_none (missing : heap.element? source position = none) :
    (elements source position).next? heap = (none, heap) := by
  simp only [next?, missing]

theorem next?_elements_of_some {element : Address}
    (found : heap.element? source position = some element) :
    (elements source position).next? heap =
      (some ((heap.copy element).1, elements source (position + 1)), (heap.copy element).2) := by
  simp only [next?, found]

theorem next?_entries_of_none (missing : heap.entry? source position = none)
    (pairType : StaticType) : (entries source position pairType).next? heap = (none, heap) := by
  simp only [next?, missing]

theorem next?_entries_of_some {entry : Address × Address}
    (found : heap.entry? source position = some entry) (pairType : StaticType) :
    (entries source position pairType).next? heap =
      (some ((heap.pairUp entry pairType).1, entries source (position + 1) pairType),
        (heap.pairUp entry pairType).2) := by
  simp only [next?, found, Heap.pairUp]

end Items

namespace Evaluation

variable {α : Type} {setup : Setup} {nested : Nested}

/-! ## Frames around an evaluation -/

theorem inScope_triple (lasting : Ledger.Lasting licence property) {before : Hand}
    {hands : α → Hand} {failed : Hand} {body : Evaluation α}
    (triple : Triple (Holding property depth before) body
      (fun result => Holding property depth (hands result)) (Holding property depth failed)) :
    Triple (Holding property depth before) (inScope body)
      (fun result => Holding property depth (hands result)) (Holding property depth failed) := by
  intro state held
  have pushed : Holding property depth before { state with scopes := state.scopes.push } :=
    held.step lasting .push rfl
  apply Triple.ensuring _ _ pushed
  apply triple.weaken
  · intro state started
    exact started
  · intro result state ended
    exact ended.pop lasting
  · intro state ended
    exact ended.pop lasting

theorem inLoop_triple {before : Hand} {hands : α → Hand} {failed : Hand} {body : Evaluation α}
    (triple : Triple (Holding property depth before) body
      (fun result => Holding property depth (hands result)) (Holding property depth failed)) :
    Triple (Holding property depth before) (inLoop body)
      (fun result => Holding property depth (hands result)) (Holding property depth failed) := by
  intro state held
  have pushed : Holding property depth before
      { state with loops := state.loops.push { scopeDepth := state.scopes.depth } } := held
  apply Triple.ensuring _ _ pushed
  exact triple

/-! ## Statement lists -/

theorem sequence_triple (sound : nested.Sound property) (statements : List StatementId)
    (hand : Hand) :
    Triple (Holding property depth hand) (sequence nested statements)
      (fun _ => Holding property depth hand) (Holding property depth hand) := by
  induction statements with
  | nil => exact Triple.pure fun state held => held
  | cons statement others induction =>
      apply Triple.bind (sound.execute statement depth hand)
      intro _
      apply Triple.bind Triple.glance
      intro stops
      split
      · exact Triple.pure fun state held => held
      · exact induction

theorem block_triple (lasting : Ledger.Lasting licence property) (sound : nested.Sound property)
    (body : Block) (hand : Hand) :
    Triple (Holding property depth hand) (block nested body)
      (fun _ => Holding property depth hand) (Holding property depth hand) :=
  inScope_triple lasting (sequence_triple sound body.statements hand)

/-! ## Loops -/

theorem iteration_triple (lasting : Ledger.Lasting licence property)
    (sound : nested.Sound property) (depth : Nat) (binding : Option (Name × Address)) (body : Block)
    (hand : Hand) :
    Triple (Holding property depth (hand.ownAll (binding.map Prod.snd).toList))
      (iteration nested binding body) (fun _ => Holding property depth hand)
      (Holding property depth hand) := by
  apply inScope_triple lasting
  have rest : Triple (Holding property depth hand)
      (do
        sequence nested body.statements
        read (!·.loopFinished))
      (fun _ => Holding property depth hand) (Holding property depth hand) := by
    apply Triple.bind (sequence_triple sound body.statements hand)
    intro _
    exact Triple.glance
  cases binding with
  | none =>
      rw [Option.map_none, Option.toList_none, Hand.ownAll_nil]
      exact rest
  | some pair =>
      obtain ⟨name, value⟩ := pair
      rw [Option.map_some, Option.toList_some, Hand.ownAll_cons, Hand.ownAll_nil,
        ← Hand.carry_false]
      apply Triple.bind (declare_triple (Holding.stable lasting depth) (by simp) name value hand)
      intro _
      exact rest

/-- An item is a new value, and nothing happens when there is none. -/
theorem fashioned_next? (items : Items) (heap : Heap) :
    Heap.Fashioned heap 0 (items.next? heap).2
      (((items.next? heap).1.map Prod.fst).toList : Multiset Address) := by
  cases items with
  | integers next stop =>
      by_cases more : next.toInt < stop.toInt
      · rw [Items.next?_integers_of_lt more]
        exact Heap.Fashioned.newScalar heap (.int next)
      · rw [Items.next?_integers_of_not_lt more]
        exact Heap.Fashioned.refl heap 0
  | elements source position =>
      cases found : heap.element? source position with
      | none =>
          rw [Items.next?_elements_of_none found]
          exact Heap.Fashioned.refl heap 0
      | some element =>
          rw [Items.next?_elements_of_some found]
          exact Heap.Fashioned.copy heap element
  | entries source position pairType =>
      cases found : heap.entry? source position with
      | none =>
          rw [Items.next?_entries_of_none found]
          exact Heap.Fashioned.refl heap 0
      | some entry =>
          simp only [Items.next?_entries_of_some found, Option.map_some, Option.toList_some,
            Multiset.coe_singleton]
          exact Heap.Fashioned.pairUp heap entry pairType

theorem forEachFrom_triple (lasting : Ledger.Lasting licence property)
    (sound : nested.Sound property) (name : Name) (body : Block) (count : Nat) (items : Items)
    (hand : Hand) :
    Triple (Holding property depth hand) (forEachFrom nested name body count items)
      (fun _ => Holding property depth hand) (Holding property depth hand) := by
  induction count generalizing items with
  | zero => exact Triple.stop (by simp)
  | succ count induction =>
      have next : Triple (Holding property depth hand) (onHeap items.next?)
          (fun item? => Holding property depth (hand.ownAll (item?.map Prod.fst).toList))
          (Holding property depth hand) := by
        intro state held
        have made := (Holding.stable lasting depth).gain (fashioned_next? items state.heap).makes held
        exact made
      apply Triple.bind next
      intro item?
      cases item? with
      | none =>
          apply Triple.pure
          intro state held
          rw [Option.map_none, Option.toList_none, Hand.ownAll_nil] at held
          exact held
      | some item =>
          obtain ⟨value, others⟩ := item
          apply Triple.bind (iteration_triple lasting sound depth (some (name, value)) body hand)
          intro goesOn
          split
          · exact induction others
          · exact Triple.pure fun state held => held

theorem forEach_triple (lasting : Ledger.Lasting licence property)
    (sound : nested.Sound property) (name : Name) (iterable : ExpressionId) (body : Block)
    (hand : Hand) :
    Triple (Holding property depth hand) (forEach setup nested name iterable body)
      (fun _ => Holding property depth hand) (Holding property depth hand) := by
  have stable := Holding.stable lasting depth
  apply Triple.bind ((sound.operands depth).evaluate iterable hand)
  intro source
  apply Triple.bind Triple.glance
  intro items?
  rw [← hand.ownAll_nil, ← Hand.ownAll_cons, hand.ownAll_nil]
  split
  · apply Triple.bind (Triple.release stable)
    intro _
    exact inLoop_triple (forEachFrom_triple lasting sound name body nested.iterations _ hand)
  · apply Triple.holding stable
    exact inLoop_triple (forEachFrom_triple lasting sound name body nested.iterations _ _)
  · apply Triple.holding stable
    apply Triple.bind Triple.glance
    intro kind
    apply Triple.located
    exact Triple.fail fun state held => held

theorem whileFrom_triple (lasting : Ledger.Lasting licence property)
    (sound : nested.Sound property) (test : ExpressionId) (body : Block) (count : Nat)
    (hand : Hand) :
    Triple (Holding property depth hand) (whileFrom setup nested test body count)
      (fun _ => Holding property depth hand) (Holding property depth hand) := by
  induction count with
  | zero => exact Triple.stop (by simp)
  | succ count induction =>
      apply Triple.bind
        (condition_triple (Holding.stable lasting depth) (sound.operands depth) test hand)
      intro enters
      split
      · have round := iteration_triple lasting sound depth none body hand
        rw [Option.map_none, Option.toList_none, Hand.ownAll_nil] at round
        apply Triple.bind round
        intro goesOn
        split
        · exact induction
        · exact Triple.pure fun state held => held
      · exact Triple.pure fun state held => held

theorem doWhileFrom_triple (lasting : Ledger.Lasting licence property)
    (sound : nested.Sound property) (body : Block) (test : ExpressionId) (count : Nat)
    (hand : Hand) :
    Triple (Holding property depth hand) (doWhileFrom setup nested body test count)
      (fun _ => Holding property depth hand) (Holding property depth hand) := by
  induction count with
  | zero => exact Triple.stop (by simp)
  | succ count induction =>
      have round := iteration_triple lasting sound depth none body hand
      rw [Option.map_none, Option.toList_none, Hand.ownAll_nil] at round
      apply Triple.bind round
      intro goesOn
      split
      · apply Triple.bind
          (condition_triple (Holding.stable lasting depth) (sound.operands depth) test hand)
        intro again
        split
        · exact induction
        · exact Triple.pure fun state held => held
      · exact Triple.pure fun state held => held

theorem foreverFrom_triple (lasting : Ledger.Lasting licence property)
    (sound : nested.Sound property) (body : Block) (count : Nat) (hand : Hand) :
    Triple (Holding property depth hand) (foreverFrom nested body count)
      (fun _ => Holding property depth hand) (Holding property depth hand) := by
  induction count with
  | zero => exact Triple.stop (by simp)
  | succ count induction =>
      have round := iteration_triple lasting sound depth none body hand
      rw [Option.map_none, Option.toList_none, Hand.ownAll_nil] at round
      apply Triple.bind round
      intro goesOn
      split
      · exact induction
      · exact Triple.pure fun state held => held

/-! ## Signals -/

theorem breakLoop_triple (hand : Hand) :
    Triple (Holding property depth hand) breakLoop (fun _ => Holding property depth hand)
      (Holding property depth hand) := by
  intro state held
  unfold breakLoop
  cases state.loops.break? state.calls.loopBase with
  | some loops => exact held
  | none => exact held

theorem continueLoop_triple (lasting : Ledger.Lasting licence property) (hand : Hand) :
    Triple (Holding property depth hand) continueLoop (fun _ => Holding property depth hand)
      (Holding property depth hand) := by
  intro state held
  unfold continueLoop
  cases state.loops.innermost? state.calls.loopBase with
  | some frame => exact held.step lasting (.skip frame.scopeDepth) rfl
  | none => exact held

end Evaluation

end ScriptEngine
