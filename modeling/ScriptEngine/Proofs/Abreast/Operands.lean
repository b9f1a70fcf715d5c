import ScriptEngine.Proofs.Abreast.Triple
import ScriptEngine.Proofs.Custody.Operands

/-!
# Operands side by side

Operators see alike what is linked, so they compute the same scalars and fail for the
same causes.  What is evaluated on both sides comes as pairs of handles.
-/

namespace ScriptEngine

/-! ## What operators see -/

namespace Heap.Related

variable {links : Links} {payload other content counterpart : Payload}

theorem arithmetic_eq (operator : ArithmeticOperator) (one : Related links payload other)
    (another : Related links content counterpart) :
    arithmetic operator payload content = arithmetic operator other counterpart := by
  cases one.beside with
  | scalar value =>
      cases another.beside with
      | scalar value' => rfl
      | vector parts => cases value <;> rfl
      | dict parts => cases value <;> rfl
  | vector parts =>
      cases another.beside with
      | scalar value => rfl
      | vector parts => rfl
      | dict parts => rfl
  | dict parts =>
      cases another.beside with
      | scalar value => rfl
      | vector parts => rfl
      | dict parts => rfl

theorem unaryResult_eq (operator : UnaryOperator) (one : Related links payload other) :
    unaryResult operator payload = unaryResult operator other := by
  cases one.beside with
  | scalar value => rfl
  | vector parts => cases operator <;> rfl
  | dict parts => cases operator <;> rfl

theorem conversion_eq (target : StaticType) (one : Related links payload other) :
    conversion payload target = conversion other target := by
  cases one.beside with
  | scalar value => rfl
  | vector parts => rfl
  | dict parts => rfl

end Heap.Related

/-! ## Operands -/

open Evaluation

/-- The evaluations of the expressions among the known ones, side by side. -/
structure Operands.Abreast (caching : Caching) (depth : Nat) (known : ExpressionId → Prop)
    (first second : Operands) : Prop where
  evaluate : ∀ {id}, known id → ∀ hands, Evaluation.Abreast (Linked caching depth hands)
    (first.evaluate id) (second.evaluate id)
    (fun address other => Linked caching depth (hands.own (address, other)))
    (Linked caching depth hands)
  share : ∀ {id}, known id → ∀ hands, Evaluation.Abreast (Linked caching depth hands)
    (first.share id) (second.share id)
    (fun address other => Linked caching depth (hands.share (address, other)))
    (Linked caching depth hands)

namespace Hands

variable (hands : Hands) (pair : Address × Address) (pairs : List (Address × Address))

theorem own_ownAll : (hands.ownAll pairs).own pair = (hands.own pair).ownAll pairs := by
  simp [own, ownAll]

theorem own_own (other : Address × Address) :
    (hands.own pair).own other = (hands.own other).own pair := by
  simp [own, Multiset.cons_swap]

theorem ownAll_pair (other : Address × Address) :
    hands.ownAll [pair, other] = (hands.own pair).own other := by
  rw [ownAll_cons, ownAll_cons, ownAll_nil, own_own]

theorem ownAll_ownAll (others : List (Address × Address)) :
    (hands.ownAll others).ownAll pairs = hands.ownAll (pairs ++ others) := by
  simp [ownAll, ← Multiset.coe_add, add_assoc]

theorem ownAll_append_comm (others : List (Address × Address)) :
    hands.ownAll (pairs ++ others) = hands.ownAll (others ++ pairs) := by
  simp [ownAll, ← Multiset.coe_add, add_comm (pairs : Multiset (Address × Address))]

theorem share_own (other : Address × Address) :
    (hands.own pair).share other = (hands.share other).own pair := rfl

theorem ownAll_share (other : Address × Address) :
    (hands.share other).ownAll pairs = (hands.ownAll pairs).share other := rfl

theorem share_share (other : Address × Address) :
    (hands.share pair).share other = (hands.share other).share pair := by
  simp [share, Multiset.cons_swap]

theorem shareAll_comm (others : List (Address × Address)) :
    (hands.shareAll others).shareAll pairs = (hands.shareAll pairs).shareAll others := by
  simp [shareAll, add_left_comm]

theorem shareAll_share (other : Address × Address) :
    (hands.share other).shareAll pairs = (hands.shareAll pairs).share other := by
  simp [share, shareAll]

end Hands

/-- Entries of two dicts, each a pair of keys with a pair of values. -/
abbrev Entries : Type := List ((Address × Address) × (Address × Address))

namespace Entries

def left (entries : Entries) : List (Address × Address) :=
  entries.map fun entry => (entry.1.1, entry.2.1)

def right (entries : Entries) : List (Address × Address) :=
  entries.map fun entry => (entry.1.2, entry.2.2)

def pairs (entries : Entries) : List (Address × Address) :=
  entries.flatMap fun entry => [entry.1, entry.2]

variable (entries : Entries)

theorem pairs_cons (entry : (Address × Address) × (Address × Address)) :
    pairs (entry :: entries) = entry.1 :: entry.2 :: entries.pairs := rfl

theorem children_left :
    (Payload.dict entries.left).children = entries.pairs.map Prod.fst := by
  simp [Payload.children, left, pairs, List.flatMap_map, List.map_flatMap]

theorem children_right :
    (Payload.dict entries.right).children = entries.pairs.map Prod.snd := by
  simp [Payload.children, right, pairs, List.flatMap_map, List.map_flatMap]

theorem related {links : Links} (linked : ∀ pair ∈ entries.pairs, links pair.1 pair.2) :
    Heap.Related links (.dict entries.left) (.dict entries.right) := by
  induction entries with
  | nil => exact .nil
  | cons entry others induction =>
      rw [pairs, List.flatMap_cons] at linked
      refine .cons ⟨linked entry.1 (by simp), linked entry.2 (by simp)⟩ (induction ?_)
      intro pair member
      exact linked pair (List.mem_append_right _ member)

end Entries

namespace Evaluation

variable {α : Type} {caching : Caching} {depth : Nat} {hands : Hands}

namespace Abreast

variable {before failed : State → State → Prop} {first second : Evaluation α}

/-! ## Handles of a moment -/

theorem holding (pairs : List (Address × Address)) {gained : α → α → Hands}
    (abreast : Abreast before first second
      (fun result other => Linked caching depth ((gained result other).ownAll pairs))
      (Linked caching depth (hands.ownAll pairs))) :
    Abreast before (Evaluation.holding (pairs.map Prod.fst) first)
      (Evaluation.holding (pairs.map Prod.snd) second)
      (fun result other => Linked caching depth (gained result other))
      (Linked caching depth hands) := by
  apply Abreast.ensuring
  apply abreast.weaken
  · intro state state' started
    exact started
  · intro result other state state' ended
    exact ended.release
  · intro state state' ended
    exact ended.release

/-- What both give alike is given once the handles are. -/
theorem holding_same (pairs : List (Address × Address))
    (abreast : Abreast before first second
      (fun result other state state' =>
        result = other ∧ Linked caching depth (hands.ownAll pairs) state state')
      (Linked caching depth (hands.ownAll pairs))) :
    Abreast before (Evaluation.holding (pairs.map Prod.fst) first)
      (Evaluation.holding (pairs.map Prod.snd) second)
      (fun result other state state' => result = other ∧ Linked caching depth hands state state')
      (Linked caching depth hands) := by
  apply Abreast.ensuring
  apply abreast.weaken
  · intro state state' started
    exact started
  · intro result other state state' ended
    exact ⟨ended.1, ended.2.release⟩
  · intro state state' ended
    exact ended.release

theorem guardingHeld (pairs : List (Address × Address)) {after : α → α → State → State → Prop}
    (abreast : Abreast before first second after (Linked caching depth (hands.ownAll pairs))) :
    Abreast before (Evaluation.guarding (pairs.map Prod.fst) first)
      (Evaluation.guarding (pairs.map Prod.snd) second) after (Linked caching depth hands) := by
  apply Abreast.guarding
  apply abreast.weaken
  · intro state state' started
    exact started
  · intro result other state state' ended
    exact ended
  · intro state state' ended
    exact ended.release

theorem release (pairs : List (Address × Address)) :
    Abreast (Linked caching depth (hands.ownAll pairs))
      (Evaluation.release (pairs.map Prod.fst)) (Evaluation.release (pairs.map Prod.snd))
      (fun _ _ => Linked caching depth hands) failed :=
  fun _ _ linked => .value linked.release

theorem holdingShared (pairs : List (Address × Address)) {gained : α → α → Hands}
    (abreast : Abreast before first second
      (fun result other => Linked caching depth ((gained result other).shareAll pairs))
      (Linked caching depth (hands.shareAll pairs))) :
    Abreast before (Evaluation.holding (pairs.map Prod.fst) first)
      (Evaluation.holding (pairs.map Prod.snd) second)
      (fun result other => Linked caching depth (gained result other))
      (Linked caching depth hands) := by
  apply Abreast.ensuring
  apply abreast.weaken
  · intro state state' started
    exact started
  · intro result other state state' ended
    exact ended.giveBack
  · intro state state' ended
    exact ended.giveBack

theorem guardingShared (pairs : List (Address × Address)) {after : α → α → State → State → Prop}
    (abreast : Abreast before first second after (Linked caching depth (hands.shareAll pairs))) :
    Abreast before (Evaluation.guarding (pairs.map Prod.fst) first)
      (Evaluation.guarding (pairs.map Prod.snd) second) after (Linked caching depth hands) := by
  apply Abreast.guarding
  apply abreast.weaken
  · intro state state' started
    exact started
  · intro result other state state' ended
    exact ended
  · intro state state' ended
    exact ended.giveBack

/-- A new value takes over what it is made of. -/
theorem allocate (pairs : List (Address × Address)) {action action' : Heap → Address × Heap}
    (makes : ∀ heap, Heap.Makes False heap (pairs.map Prod.fst : List Address) (action heap).2
      {(action heap).1})
    (makes' : ∀ heap, Heap.Makes False heap (pairs.map Prod.snd : List Address) (action' heap).2
      {(action' heap).1})
    (grown : ∀ {state state' : State} {links : Links},
      Linked caching depth (hands.ownAll pairs) state state' →
        State.Joined caching (hands.ownAll pairs) state state' links →
          Heap.Grown links caching.Loose state.heap (action state.heap).2 (action' state'.heap).2 (action state.heap).1
            (action' state'.heap).1) :
    Abreast (Linked caching depth (hands.ownAll pairs)) (Evaluation.onHeap action)
      (Evaluation.onHeap action')
      (fun address other => Linked caching depth (hands.own (address, other))) failed := by
  intro state state' linked
  exact .value (linked.craft (makes state.heap) (makes' state'.heap) (grown linked))

/-- A new value that takes nothing over. -/
theorem create {action action' : Heap → Address × Heap}
    (makes : ∀ heap, Heap.Makes False heap 0 (action heap).2 {(action heap).1})
    (makes' : ∀ heap, Heap.Makes False heap 0 (action' heap).2 {(action' heap).1})
    (grown : ∀ {state state' : State} {links : Links}, Linked caching depth hands state state' →
      State.Joined caching hands state state' links →
        Heap.Grown links caching.Loose state.heap (action state.heap).2 (action' state'.heap).2 (action state.heap).1
          (action' state'.heap).1) :
    Abreast (Linked caching depth hands) (Evaluation.onHeap action) (Evaluation.onHeap action')
      (fun address other => Linked caching depth (hands.own (address, other))) failed := by
  intro state state' linked
  exact .value (linked.create (makes state.heap) (makes' state'.heap) (grown linked))

theorem newScalar (value : Scalar) :
    Abreast (Linked caching depth hands) (Evaluation.newScalar value) (Evaluation.newScalar value)
      (fun address other => Linked caching depth (hands.own (address, other))) failed :=
  create (fun heap => (Heap.Fashioned.newScalar heap value).makes)
    (fun heap => (Heap.Fashioned.newScalar heap value).makes)
    fun _ joined => joined.agree.newScalar value

theorem copy {source source' : Address} (has : hands.Has source source') :
    Abreast (Linked caching depth hands) (Evaluation.copy source) (Evaluation.copy source')
      (fun address other => Linked caching depth (hands.own (address, other))) failed :=
  create (fun heap => (Heap.Fashioned.copy heap source).makes)
    (fun heap => (Heap.Fashioned.copy heap source').makes)
    fun linked joined => joined.agree.copy linked.left.sound.grounded linked.right.sound.grounded
      (joined.has has)

end Abreast

variable {known : ExpressionId → Prop} {operands operands' : Operands} {setup : Setup}

/-! ## Operators -/

theorem applyArithmetic_abreast (operator : ArithmeticOperator) (left right : Address × Address) :
    Abreast (Linked caching depth (hands.ownAll [left, right]))
      (applyArithmetic operator left.1 right.1) (applyArithmetic operator left.2 right.2)
      (fun address other => Linked caching depth (hands.own (address, other)))
      (Linked caching depth hands) := by
  apply Abreast.holding [left, right]
  apply Abreast.bind_same (Abreast.glance _)
  · intro result
    apply Abreast.bind_same (Abreast.ofExcept_glance fun _ _ linked => linked)
    intro value
    simp only [← Hands.own_ownAll]
    exact Abreast.newScalar value
  · intro state state' linked
    obtain ⟨links, joined⟩ := linked.joined
    obtain ⟨payload, other, found, found', one⟩ := joined.agree.payload
      (joined.has (Hands.has_ownAll_iff.mpr (Or.inl (List.mem_cons_self))))
    obtain ⟨content, counterpart, present, present', another⟩ := joined.agree.payload
      (joined.has (Hands.has_ownAll_iff.mpr (Or.inl (List.mem_cons_of_mem _ List.mem_cons_self))))
    simp only [found, found', present, present', one.arithmetic_eq operator another]

theorem arithmeticChain_abreast (both : operands.Abreast caching depth known operands')
    {rest : List (ArithmeticOperator × ExpressionId)}
    (all : ∀ id ∈ rest.map Prod.snd, known id) (left : Address × Address) :
    Abreast (Linked caching depth (hands.own left)) (arithmeticChain operands left.1 rest)
      (arithmeticChain operands' left.2 rest)
      (fun address other => Linked caching depth (hands.own (address, other)))
      (Linked caching depth hands) := by
  induction rest generalizing left with
  | nil => exact Abreast.pure fun _ _ linked => linked
  | cons first others induction =>
      obtain ⟨operator, operand⟩ := first
      rw [List.map_cons, List.forall_mem_cons] at all
      apply Abreast.bind
      · apply Abreast.guardingHeld [left]
        rw [Hands.ownAll_cons, Hands.ownAll_nil]
        exact both.evaluate all.1 (hands.own left)
      · intro right right'
        apply Abreast.bind
        · rw [Hands.own_own, ← hands.ownAll_nil, ← Hands.ownAll_cons, ← Hands.ownAll_cons,
            hands.ownAll_nil]
          exact applyArithmetic_abreast operator left (right, right')
        · intro result result'
          exact induction all.2 (result, result')

theorem comparisonChain_abreast (both : operands.Abreast caching depth known operands')
    {rest : List (ComparisonOperator × ExpressionId)}
    (all : ∀ id ∈ rest.map Prod.snd, known id) (left : Address × Address) :
    Abreast (Linked caching depth (hands.own left)) (comparisonChain operands left.1 rest)
      (comparisonChain operands' left.2 rest)
      (fun address other => Linked caching depth (hands.own (address, other)))
      (Linked caching depth hands) := by
  induction rest generalizing left with
  | nil =>
      apply Abreast.holding [left]
      simp only [← Hands.own_ownAll]
      rw [Hands.ownAll_cons, Hands.ownAll_nil]
      exact Abreast.newScalar _
  | cons first others induction =>
      obtain ⟨operator, operand⟩ := first
      rw [List.map_cons, List.forall_mem_cons] at all
      apply Abreast.bind
      · apply Abreast.guardingHeld [left]
        rw [Hands.ownAll_cons, Hands.ownAll_nil]
        exact both.evaluate all.1 (hands.own left)
      · intro right right'
        rw [← Hands.ownAll_pair]
        apply Abreast.bind_same (Abreast.glance _)
        · intro result
          apply Abreast.bind_same
          · apply Abreast.guardingHeld [left, (right, right')]
            exact Abreast.ofExcept_glance fun _ _ linked => linked
          · intro agrees
            cases agrees with
            | true =>
                rw [Hands.ownAll_pair, Hands.own_own, ← (hands.own (right, right')).ownAll_nil,
                  ← Hands.ownAll_cons]
                apply Abreast.bind (Abreast.release [left])
                intro _ _
                exact induction all.2 (right, right')
            | false =>
                apply Abreast.holding [left, (right, right')]
                simp only [← Hands.own_ownAll]
                exact Abreast.newScalar _
        · intro state state' linked
          obtain ⟨links, joined⟩ := linked.joined
          have one := joined.has (Hands.has_ownAll_iff.mpr (Or.inl List.mem_cons_self))
          have other := joined.has
            (Hands.has_ownAll_iff.mpr (Or.inl (List.mem_cons_of_mem left List.mem_cons_self)))
          exact joined.agree.comparison_eq linked.left.sound.grounded linked.right.sound.grounded
            operator one other

theorem applyUnary_abreast (operator : UnaryOperator) (operand : Address × Address) :
    Abreast (Linked caching depth (hands.own operand)) (applyUnary operator operand.1)
      (applyUnary operator operand.2)
      (fun address other => Linked caching depth (hands.own (address, other)))
      (Linked caching depth hands) := by
  apply Abreast.holding [operand]
  simp only [← Hands.own_ownAll, Hands.ownAll_cons, Hands.ownAll_nil]
  apply Abreast.bind_same (Abreast.read _)
  · intro result
    apply Abreast.bind_same (Abreast.ofExcept fun _ _ linked => linked.1)
    intro value
    cases value with
    | some value =>
        apply (Abreast.newScalar value).weaken
        · intro state state' linked
          exact linked.1.1
        · intro address other state state' made
          exact made
        · intro state state' ended
          exact ended
    | none =>
        rintro state state' ⟨⟨linked, viewed⟩, same⟩
        rw [viewed] at same
        split at same
        · rename_i payload found
          obtain ⟨value, rfl⟩ := scalar_of_unaryResult same
          have scalar : state.heap.scalar? operand.1 = some value := by simp [Heap.scalar?, found]
          exact .value (linked.duplicate scalar fun joined =>
            joined.has (Hands.has_own_iff.mpr (Or.inl rfl)))
        · simp at same
  · intro state state' linked
    obtain ⟨links, joined⟩ := linked.joined
    obtain ⟨payload, other, found, found', related⟩ := joined.agree.payload
      (joined.has (Hands.has_own_iff.mpr (Or.inl rfl)))
    simp only [found, found', related.unaryResult_eq operator]

theorem applyCast_abreast (source : Address × Address) (target : StaticType) :
    Abreast (Linked caching depth (hands.own source)) (applyCast source.1 target)
      (applyCast source.2 target)
      (fun address other => Linked caching depth (hands.own (address, other)))
      (Linked caching depth hands) := by
  apply Abreast.holding [source]
  simp only [← Hands.own_ownAll, Hands.ownAll_cons, Hands.ownAll_nil]
  apply Abreast.bind_same (Abreast.glance _)
  · intro result
    apply Abreast.bind_same (Abreast.ofExcept_glance fun _ _ linked => linked)
    intro conversion
    cases conversion with
    | computed value => exact Abreast.newScalar value
    | duplicate => exact Abreast.copy (Hands.has_own_iff.mpr (Or.inl rfl))
  · intro state state' linked
    obtain ⟨links, joined⟩ := linked.joined
    obtain ⟨payload, other, found, found', related⟩ := joined.agree.payload
      (joined.has (Hands.has_own_iff.mpr (Or.inl rfl)))
    simp only [found, found', related.conversion_eq target]

/-! ## Containers and ranges -/

theorem evaluateAll_abreast (both : operands.Abreast caching depth known operands')
    {ids : List ExpressionId} (all : ∀ id ∈ ids, known id) :
    Abreast (Linked caching depth hands) (evaluateAll operands ids) (evaluateAll operands' ids)
      (fun addresses others state state' => ∃ pairs : List (Address × Address),
        addresses = pairs.map Prod.fst ∧ others = pairs.map Prod.snd ∧
          Linked caching depth (hands.ownAll pairs) state state')
      (Linked caching depth hands) := by
  induction ids generalizing hands with
  | nil =>
      apply Abreast.pure
      intro state state' linked
      refine ⟨[], rfl, rfl, ?_⟩
      rw [Hands.ownAll_nil]
      exact linked
  | cons id others induction =>
      rw [List.forall_mem_cons] at all
      apply Abreast.bind (both.evaluate all.1 hands)
      intro first first'
      apply Abreast.bind_joint
      · apply Abreast.guardingHeld [(first, first')]
        rw [Hands.ownAll_cons, Hands.ownAll_nil]
        exact induction all.2
      · intro rest
        apply Abreast.pure
        intro state state' linked
        refine ⟨(first, first') :: rest, rfl, rfl, ?_⟩
        rw [Hands.ownAll_cons, Hands.own_ownAll]
        exact linked

theorem evaluatePairs_abreast (both : operands.Abreast caching depth known operands')
    {ids : List (ExpressionId × ExpressionId)}
    (all : ∀ id ∈ ids.flatMap fun entry => [entry.1, entry.2], known id) :
    Abreast (Linked caching depth hands) (evaluatePairs operands ids) (evaluatePairs operands' ids)
      (fun pairs others state state' => ∃ entries : Entries,
        pairs = entries.left ∧ others = entries.right ∧
          Linked caching depth (hands.ownAll entries.pairs) state state')
      (Linked caching depth hands) := by
  induction ids generalizing hands with
  | nil =>
      apply Abreast.pure
      intro state state' linked
      refine ⟨[], rfl, rfl, ?_⟩
      rw [Entries.pairs, List.flatMap_nil, Hands.ownAll_nil]
      exact linked
  | cons entry others induction =>
      simp only [List.flatMap_cons, List.cons_append, List.nil_append, List.forall_mem_cons] at all
      obtain ⟨key, value, others⟩ := all
      apply Abreast.bind (both.evaluate key hands)
      intro first first'
      apply Abreast.bind
      · apply Abreast.guardingHeld [(first, first')]
        rw [Hands.ownAll_cons, Hands.ownAll_nil]
        exact both.evaluate value (hands.own (first, first'))
      · intro second second'
        apply Abreast.bind_joint
        · apply Abreast.guardingHeld [(first, first'), (second, second')]
          rw [Hands.ownAll_pair]
          exact induction others
        · intro rest
          apply Abreast.pure
          intro state state' linked
          refine ⟨((first, first'), (second, second')) :: rest, rfl, rfl, ?_⟩
          rw [← Hands.ownAll_pair, Hands.ownAll_ownAll, Hands.ownAll_append_comm] at linked
          exact linked

theorem recordedType_abreast {before : State → State → Prop} (id : ExpressionId) :
    Abreast before (recordedType setup id) (recordedType setup id)
      (fun type other state state' => type = other ∧ before state state') before := by
  unfold recordedType
  split
  · exact Abreast.pure fun _ _ started => ⟨rfl, started⟩
  · exact Abreast.fail _ fun _ _ started => started

theorem vector_abreast (both : operands.Abreast caching depth known operands') (id : ExpressionId)
    {elements : List ExpressionId} (all : ∀ id ∈ elements, known id) :
    Abreast (Linked caching depth hands) (vector setup operands id elements)
      (vector setup operands' id elements)
      (fun address other => Linked caching depth (hands.own (address, other)))
      (Linked caching depth hands) := by
  apply Abreast.bind_same (recordedType_abreast id)
  intro type
  apply Abreast.bind_joint (evaluateAll_abreast both all)
  intro pairs
  apply Abreast.allocate pairs
  · exact fun heap => (Heap.Fashioned.newVector heap _ _).makes
  · exact fun heap => (Heap.Fashioned.newVector heap _ _).makes
  · intro state state' links linked joined
    apply joined.agree.newVector
    rw [List.forall₂_map_left_iff, List.forall₂_map_right_iff, List.forall₂_same]
    intro pair member
    exact joined.has (Hands.has_ownAll_iff.mpr (Or.inl member))

theorem dict_abreast (both : operands.Abreast caching depth known operands') (id : ExpressionId)
    {entries : List (ExpressionId × ExpressionId)}
    (all : ∀ id ∈ entries.flatMap fun entry => [entry.1, entry.2], known id) :
    Abreast (Linked caching depth hands) (dict setup operands id entries)
      (dict setup operands' id entries)
      (fun address other => Linked caching depth (hands.own (address, other)))
      (Linked caching depth hands) := by
  apply Abreast.bind_same (recordedType_abreast id)
  intro type
  apply Abreast.bind_joint (evaluatePairs_abreast both all)
  intro entries
  apply Abreast.allocate entries.pairs
  · intro heap
    rw [← entries.children_left]
    exact (Heap.Fashioned.newDict heap _ _ _).makes
  · intro heap
    rw [← entries.children_right]
    exact (Heap.Fashioned.newDict heap _ _ _).makes
  · intro state state' links linked joined
    have left := linked.left.sound
    have right := linked.right.sound
    rw [Ledger.handles, State.ledger, Hands.left_ownAll, ← entries.children_left, Hand.ownAll,
      add_assoc] at left
    rw [Ledger.handles, State.ledger, Hands.right_ownAll, ← entries.children_right, Hand.ownAll,
      add_assoc] at right
    apply joined.agree.newDict left right
    apply entries.related
    intro pair member
    exact joined.has (Hands.has_ownAll_iff.mpr (Or.inl member))

theorem bound_abreast (both : operands.Abreast caching depth known operands') {id : ExpressionId}
    (here : known id) :
    Abreast (Linked caching depth hands) (bound operands id) (bound operands' id)
      (fun number other state state' => number = other ∧ Linked caching depth hands state state')
      (Linked caching depth hands) := by
  apply Abreast.bind (both.evaluate here hands)
  intro address address'
  apply Abreast.holding_same [(address, address')]
  rw [Hands.ownAll_cons, Hands.ownAll_nil]
  apply Abreast.bind_same (Abreast.glance _)
  · intro result
    exact Abreast.ofExcept_glance fun _ _ linked => linked
  · intro state state' linked
    obtain ⟨links, joined⟩ := linked.joined
    have known := joined.has (Hands.has_own_iff.mpr (Or.inl rfl))
    simp only [joined.agree.scalar?_eq known, joined.agree.kind_eq known]

theorem range_abreast (both : operands.Abreast caching depth known operands')
    {start stop : ExpressionId} (begins : known start) (ends : known stop) :
    Abreast (Linked caching depth hands) (range operands start stop) (range operands' start stop)
      (fun address other => Linked caching depth (hands.own (address, other)))
      (Linked caching depth hands) := by
  apply Abreast.bind_same (bound_abreast both begins)
  intro first
  apply Abreast.bind_same (bound_abreast both ends)
  intro last
  exact Abreast.newScalar _

end Evaluation

end ScriptEngine
