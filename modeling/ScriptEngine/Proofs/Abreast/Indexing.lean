import ScriptEngine.Proofs.Abreast.Literals
import ScriptEngine.Proofs.Ownership.Readings
import ScriptEngine.Proofs.Ownership.Snapshots

/-!
# Indexing stored data and a copy of it

One run walks stored data, another a copy of it.  What they stand on is not linked, but it
has the same contents, and quiet expressions leave that alone.  So the same keys lead both
of them on to the same contents, or nowhere for one cause, as long as there is no NaN in
the keys.
-/

namespace ScriptEngine

open Evaluation

variable {α β : Type} {depth : Nat} {hands : Hands} {state other : State}

/-- The elements that keys lead to, read from a copy of what the base gives. -/
def Evaluation.indexCopy (setup : Setup) (operands : Operands) (base : ExpressionId)
    (indices : List ExpressionId) : Evaluation Address := do
  let container ← operands.evaluate base
  indexChain setup operands container indices

/-- No key that is read with on the way has a NaN in it. -/
def Evaluation.ProperKeys (operands : Operands) : List ExpressionId → Address → State → Prop
  | [], _, _ => True
  | index :: others, container, state =>
      ∀ {key middle}, operands.evaluate index state = .value key middle →
        (middle.heap.tree key).hasNan = false ∧
          ∀ {element after}, readElement container key middle = .value element after →
            ProperKeys operands others element after

/-! ## Ends for one cause -/

/-- Two values, two failures for one cause, or one stop. -/
inductive Outcome.Akin (after : α → α → State → State → Prop) : Outcome α → Outcome α → Prop where
  | value {result other : α} {state state' : State} :
      after result other state state' → Akin after (.value result state) (.value other state')
  | failure {failure failure' : Failure} {state state' : State} :
      failure.cause = failure'.cause →
        Akin after (.failure failure state) (.failure failure' state')
  | stopped (reason : Stop) : Akin after (.stopped reason) (.stopped reason)

namespace Outcome.Akin

variable {after : α → α → State → State → Prop} {failed : State → State → Prop}
  {first second : Evaluation α}

theorem of_abreast {one another : Outcome α} (abreast : one.Abreast after failed another) :
    Akin after one another := by
  cases abreast with
  | value held => exact .value held
  | failure failure _ => exact .failure rfl
  | stopped _ => exact .stopped _

theorem imp {last : α → α → State → State → Prop} {one another : Outcome α}
    (akin : Akin after one another)
    (ends : ∀ {result other state state'}, one = .value result state →
      another = .value other state' → after result other state state' →
        last result other state state') : Akin last one another := by
  cases akin with
  | value held => exact .value (ends rfl rfl held)
  | failure same => exact .failure same
  | stopped reason => exact .stopped reason

theorem bind {last : β → β → State → State → Prop} {next next' : α → Evaluation β}
    (akin : Akin after (first state) (second other))
    (rest : ∀ {result result' middle middle'}, first state = .value result middle →
      second other = .value result' middle' → after result result' middle middle' →
        Akin last (next result middle) (next' result' middle')) :
    Akin last ((first >>= next) state) ((second >>= next') other) := by
  rw [bind_run, bind_run]
  generalize one : first state = outcome, another : second other = outcome' at akin
  cases akin with
  | value held => exact rest one another held
  | failure same => exact .failure same
  | stopped reason => exact .stopped reason

theorem located (akin : Akin after (first state) (second other)) (span span' : Span) :
    Akin after (Evaluation.located span first state) (Evaluation.located span' second other) := by
  unfold Evaluation.located
  generalize first state = one, second other = another at akin ⊢
  cases akin with
  | value held => exact .value held
  | failure same => exact .failure same
  | stopped reason => exact .stopped reason

/-- Blame does not matter. -/
theorem locatedLeft {another : Outcome α} (akin : Akin after (first state) another) (span : Span) :
    Akin after (Evaluation.located span first state) another := by
  unfold Evaluation.located
  generalize first state = one at akin ⊢
  cases akin with
  | value held => exact .value held
  | failure same => exact .failure same
  | stopped reason => exact .stopped reason

theorem guarding (akin : Akin after (first state) (second other)) (held held' : List Address) :
    Akin after (Evaluation.guarding held first state) (Evaluation.guarding held' second other) := by
  unfold Evaluation.guarding
  generalize first state = one, second other = another at akin ⊢
  cases akin with
  | value held => exact .value held
  | failure same => exact .failure same
  | stopped reason => exact .stopped reason

end Outcome.Akin

/-! ## What is held aside -/

/-- Containers held aside, one in each run, with the same contents. -/
structure Paired (depth : Nat) (hands : Hands) (pair : Address × Address) (state other : State) :
    Prop where
  linked : Linked .both depth (hands.putAside pair) state other
  same : state.heap.tree pair.1 = other.heap.tree pair.2

namespace Linked

variable {caching : Caching} {pair : Address × Address}

theorem aside_present (linked : Linked caching depth (hands.putAside pair) state other) :
    state.heap.payload? pair.1 ≠ none ∧ other.heap.payload? pair.2 ≠ none := by
  constructor
  · apply linked.left.present
    rw [Hands.left_putAside]
    exact Or.inr (Multiset.mem_cons_self _ _)
  · apply linked.right.present
    rw [Hands.right_putAside]
    exact Or.inr (Multiset.mem_cons_self _ _)

/-- Shared handles may be put aside. -/
theorem paired (linked : Linked .both depth (hands.share pair) state other) :
    Paired depth hands pair state other := by
  refine ⟨?_, linked.tree_eq (Hands.has_share_iff.mpr (Or.inl rfl))⟩
  apply linked.survive _ _ rfl rfl (.refl _) (.refl _)
  · intro links joined
    exact ⟨joined.along, fun held => joined.has (Hands.has_share_iff.mpr (Or.inr held))⟩
  · rw [Hands.left_putAside, ← Hands.left_share]
    exact linked.left
  · rw [Hands.right_putAside, ← Hands.right_share]
    exact linked.right

end Linked

namespace Paired

variable {pair : Address × Address} {after after' : State}

/-- While both containers are held, their contents stay. -/
theorem advance (held : Paired depth hands pair state other) {hands' : Hands}
    (linked : Linked .both depth (hands'.putAside pair) after after')
    (survives : state.heap.Survives after.heap) (survives' : other.heap.Survives after'.heap) :
    Paired depth hands' pair after after' := by
  obtain ⟨old, old'⟩ := held.linked.aside_present
  obtain ⟨alive, alive'⟩ := linked.aside_present
  refine ⟨linked, ?_⟩
  rw [survives.tree held.linked.left.sound linked.left.sound old alive,
    survives'.tree held.linked.right.sound linked.right.sound old' alive', held.same]

end Paired

/-- What a key leads to in a container is shared, in the place of both. -/
theorem Evaluation.readElement_run (container key : Address) (state : State) :
    readElement container key state =
      match state.heap.valueAt container key with
      | .ok element =>
          .value element { state with
            heap := ((state.heap.retain element).release key).releaseAll [container] }
      | .error cause =>
          .failure (.of cause) { state with
            heap := (state.heap.release key).releaseAll [container] } := by
  unfold readElement Heap.readElement
  rw [bind_run]
  cases found : state.heap.valueAt container key with
  | ok element =>
      simp only [holding, ensuring, onHeap, State.onHeap, found]
      rfl
  | error cause => 
      simp only [holding, ensuring, onHeap, State.onHeap, found]
      rfl

namespace Paired

variable {pair key : Address × Address} {known : ExpressionId → Prop} {operands : Operands}

/-- Containers with the same contents are read alike. -/
theorem read (held : Paired depth (hands.own key) pair state other)
    (proper : (state.heap.tree key.1).hasNan = false) :
    Outcome.Akin (fun element element' => Paired depth hands (element, element'))
      (readElement pair.1 key.1 state) (readElement pair.2 key.2 other) := by
  have keys : state.heap.tree key.1 = other.heap.tree key.2 :=
    held.linked.tree_eq (Hands.has_putAside_iff.mpr (Hands.has_own_iff.mpr (Or.inl rfl)))
  have left : Holding Ledger.Orderly depth ((hands.left.share pair.1).own key.1) state := by
    have started := held.linked.left
    rwa [Hands.left_putAside, Hands.left_own, Hand.share_own] at started
  have right : Holding Ledger.Orderly depth ((hands.right.share pair.2).own key.2) other := by
    have started := held.linked.right
    rwa [Hands.right_putAside, Hands.right_own, Hand.share_own] at started
  obtain ⟨alive, alive'⟩ := held.linked.aside_present
  have given := left.present (Or.inl (Multiset.mem_cons_self key.1 hands.left.owned))
  have given' := right.present (Or.inl (Multiset.mem_cons_self key.2 hands.right.owned))
  have read := left.sound.tree_valueAt alive given proper
  have read' := right.sound.tree_valueAt alive' given' (keys ▸ proper)
  rw [held.same, keys, ← read'] at read
  have remains : ∀ (heap : Heap) (element key container : Address),
      heap.Remains (((heap.retain element).release key).releaseAll [container]) :=
    fun _ _ _ _ => ((Heap.Remains.retain _ _).trans (.releaseAll _ _)).trans (.releaseAll _ _)
  rw [readElement_run, readElement_run]
  cases found : state.heap.valueAt pair.1 key.1 with
  | error cause =>
      cases found' : other.heap.valueAt pair.2 key.2 with
      | error cause' =>
          rw [found, found'] at read
          cases read
          exact .failure rfl
      | ok element' => simp [found, found', Except.map] at read
  | ok element =>
      cases found' : other.heap.valueAt pair.2 key.2 with
      | error cause' => simp [found, found', Except.map] at read
      | ok element' =>
          rw [found, found'] at read
          have ended := (readElement_triple (Linked.stable depth) pair.1 key.1 hands.left).of_value
            left ((readElement_run _ _ _).trans (by rw [found]))
          have ended' := (readElement_triple (Linked.stable depth) pair.2 key.2 hands.right).of_value
            right ((readElement_run _ _ _).trans (by rw [found']))
          apply Outcome.Akin.value
          rw [← Hands.left_putAside hands (element, element')] at ended
          rw [← Hands.right_putAside hands (element, element')] at ended'
          have remaining := remains state.heap element key.1 pair.1
          have remaining' := remains other.heap element' key.2 pair.2
          have linked := held.linked.survive ended ended' rfl rfl remaining.survives
            remaining'.survives fun joined => ⟨joined.along.onHeap _ _, fun has =>
              joined.has (Hands.has_putAside_iff.mpr (Hands.has_own_iff.mpr (Or.inr has)))⟩
          obtain ⟨present, present'⟩ := linked.aside_present
          refine ⟨linked, ?_⟩
          have tree := remaining.survives.tree left.sound linked.left.sound
            (remaining.present present) present
          have tree' := remaining'.survives.tree right.sound linked.right.sound
            (remaining'.present present') present'
          rw [tree, tree']
          exact Except.ok.inj read

variable {setup : Setup}

/-- The same keys lead on from what has the same contents. -/
theorem follow (both : operands.Abreast .both depth known operands)
    (gentle : ∀ {id}, known id → (operands.evaluate id).Gentle) {indices : List ExpressionId}
    (all : ∀ id ∈ indices, known id) (held : Paired depth hands pair state other)
    (proper : ProperKeys operands indices pair.1 state) :
    Outcome.Akin (fun element element' => Paired depth hands (element, element'))
      (indexChain setup operands pair.1 indices state)
      (indexChain setup operands pair.2 indices other) := by
  induction indices generalizing pair state other with
  | nil => exact .value held
  | cons index others induction =>
      rw [List.forall_mem_cons] at all
      have evaluated : Outcome.Akin (fun key key' middle middle' =>
          operands.evaluate index state = .value key middle ∧
            Paired depth (hands.own (key, key')) pair middle middle')
          (operands.evaluate index state) (operands.evaluate index other) := by
        apply (Outcome.Akin.of_abreast (both.evaluate all.1 (hands.putAside pair) state other
          held.linked)).imp
        intro key key' middle middle' one another linked
        exact ⟨one, held.advance linked ((gentle all.1).of_value one).heap.survives
          ((gentle all.1).of_value another).heap.survives⟩
      apply (evaluated.guarding [pair.1] [pair.2]).bind
      rintro key key' middle middle' - - ⟨found, paired⟩
      obtain ⟨clean, others⟩ := proper found
      have read : Outcome.Akin (fun element element' after after' =>
          readElement pair.1 key middle = .value element after ∧
            Paired depth hands (element, element') after after')
          (readElement pair.1 key middle) (readElement pair.2 key' middle') := by
        apply (paired.read clean).imp
        intro element element' after after' one _ paired
        exact ⟨one, paired⟩
      apply (read.located _ _).bind
      rintro element element' after after' - - ⟨found, paired⟩
      exact induction all.2 paired (others found)

end Paired

/-! ## Bases -/

namespace Linked

variable {setup : Setup} {base : ExpressionId} 

variable {hands' : Hands} {heap heap' : Heap} {first second : Address}

/-- One run holds an object, the other a copy of what it is linked to. -/
theorem copied (linked : Linked .both depth hands' state other)
    (known : ∀ {links}, State.Joined .both hands' state other links → links first second)
    (fewer : ∀ {one another}, hands.Has one another → hands'.Has one another)
    (left : Holding Ledger.Orderly depth (hands.left.share first) { state with heap := heap })
    (right : Holding Ledger.Orderly depth (hands.right.share (other.heap.copy second).1)
      { other with heap := heap' })
    (remains : state.heap.Remains heap) (remains' : (other.heap.copy second).2.Remains heap') :
    Paired depth hands (first, (other.heap.copy second).1) { state with heap := heap }
      { other with heap := heap' } := by
  rw [← Hands.left_putAside hands (first, (other.heap.copy second).1)] at left
  rw [← Hands.right_putAside hands (first, (other.heap.copy second).1)] at right
  have paired := linked.survive left right rfl rfl remains.survives
    ((Heap.Survives.build _ _).trans remains'.survives) fun joined =>
      ⟨joined.along.onHeap _ _, fun has => joined.has (fewer has)⟩
  obtain ⟨present, present'⟩ := paired.aside_present
  obtain ⟨links, joined⟩ := linked.joined
  refine ⟨paired, ?_⟩
  calc heap.tree first
    _ = state.heap.tree first := remains.survives.tree linked.left.sound paired.left.sound
        (remains.present present) present
    _ = other.heap.tree second := joined.agree.tree_eq linked.left.sound.grounded
        linked.right.sound.grounded (known joined)
    _ = (other.heap.copy second).2.tree (other.heap.copy second).1 :=
        (linked.right.sound.tree_build _).1.symm
    _ = heap'.tree (other.heap.copy second).1 := (remains'.survives.tree
        (linked.right.sound.build _) paired.right.sound (remains'.present present') present').symm

/-- A handle in one run, and a copy of what it is linked to in the other. -/
theorem shareCopy (linked : Linked .both depth hands state other)
    (shown : (state.ledger hands.left).Shows first)
    (known : ∀ {links}, State.Joined .both hands state other links → links first second) :
    Paired depth hands (first, (other.heap.copy second).1)
      { state with heap := state.heap.retain first }
      { other with heap := (other.heap.copy second).2 } :=
  linked.copied known id ((stable depth).share linked.left shown)
    ((stable depth).lower
      ((stable depth).create (Heap.Fashioned.copy other.heap second).makes linked.right))
    (.retain _ _) (.refl _)

/-- The handle in the one run may be given back once there is the copy. -/
theorem copyBack (linked : Linked .both depth (hands.share (first, second)) state other) :
    Paired depth hands (first, (other.heap.copy second).1) state
      { other with heap := (other.heap.copy second).2.releaseAll [second] } := by
  have left := linked.left
  have right := (stable depth).lower
    ((stable depth).create (Heap.Fashioned.copy other.heap second).makes linked.right)
  rw [Hands.left_share] at left
  rw [Hands.right_share, Hand.share_share, ← (Hand.share _ hands.right).shareAll_nil,
    ← Hand.shareAll_cons] at right
  exact linked.copied (fun joined => joined.has (Hands.has_share_iff.mpr (Or.inl rfl)))
    (fun has => Hands.has_share_iff.mpr (Or.inr has)) left ((stable depth).giveBack right)
    (.refl _) (.releaseAll _ _)

/-- A name is shared in one run, and copied in the other. -/
theorem share_variable (linked : Linked .both depth hands state other) (setup : Setup)
    (name : Name) :
    Outcome.Akin (fun container copied => Paired depth hands (container, copied))
      (shareVariable setup name state) (variableCopy setup name other) := by
  obtain ⟨links, joined⟩ := linked.joined
  unfold shareVariable variableCopy
  rcases cases_of_rel (joined.lookup? name) with ⟨none, none'⟩ | ⟨first, second, bound, bound', _⟩
  · rw [none, none']
    exact .failure rfl
  · rw [bound, bound']
    apply Outcome.Akin.value
    apply linked.shareCopy (shows_of_lookup? bound)
    intro links joined
    have both := joined.lookup? name
    rwa [bound, bound', Option.rel_some_some] at both

/-- An element is shared in one run, and copied in the other. -/
theorem share_indexed {setup : Setup} {known : ExpressionId → Prop} {operands : Operands}
    (linked : Linked .both depth hands state other)
    (both : operands.Abreast .both depth known operands) {base : ExpressionId}
    {indices : List ExpressionId} (all : ∀ id ∈ base :: indices, known id) :
    Outcome.Akin (fun container copied => Paired depth hands (container, copied))
      (shareIndexed setup operands base indices state)
      ((shareIndexed setup operands base indices >>= fun element =>
        holding [element] (copy element)) other) := by
  have ended : Outcome.Akin (fun container copied => Paired depth hands (container, copied))
      ((shareIndexed setup operands base indices >>= Pure.pure) state)
      ((shareIndexed setup operands base indices >>= fun element =>
        holding [element] (copy element)) other) := by
    apply (Outcome.Akin.of_abreast (shareIndexed_abreast both all state other linked)).bind
    intro element element' middle middle' _ _ linked
    exact .value linked.copyBack
  rwa [show (shareIndexed setup operands base indices >>= Pure.pure) =
    shareIndexed setup operands base indices from Evaluation.bind_pure _] at ended

end Linked

namespace Nested

variable {setup : Setup} {id base : ExpressionId} {node : Expression} {span : Span}

theorem evaluate_eq (found : setup.program.expression? id = some ⟨node, span⟩) (fuel : Nat) :
    (withFuel setup (fuel + 1)).evaluate id =
      expression setup (withFuel setup fuel).toOperands
        (callUser setup (runCall setup (withFuel setup fuel))) id node span := by
  show withExpression setup id _ = _
  rw [withExpression, found]

theorem share_eq (found : setup.program.expression? id = some ⟨node, span⟩) (fuel : Nat) :
    (withFuel setup (fuel + 1)).share id =
      sharedExpression setup (withFuel setup fuel).toOperands id node span := by
  show withExpression setup id _ = _
  rw [withExpression, found]

/-- One run shares what the base names, the other evaluates it, with at most one level of
fuel less. -/
theorem share_paired (quiet : setup.program.Quiet base) (fuel : Nat)
    (linked : Linked .both depth hands state other) :
    ∃ more, fuel ≤ more ∧ more ≤ fuel + 1 ∧
      Outcome.Akin (fun container copied => Paired depth hands (container, copied))
        ((withFuel setup more).share base state) ((withFuel setup fuel).evaluate base other) := by
  cases fuel with
  | zero => exact ⟨0, le_rfl, Nat.zero_le _, .stopped .outOfFuel⟩
  | succ fuel =>
      cases found : setup.program.expression? base with
      | none =>
          refine ⟨fuel + 1, le_rfl, Nat.le_succ _, ?_⟩
          show Outcome.Akin _ (withExpression setup base _ state)
            (withExpression setup base _ other)
          unfold withExpression
          rw [found]
          exact .stopped .missingNode
      | some entry =>
          obtain ⟨node, span⟩ := entry
          have evaluated : Outcome.Akin
              (fun container copied => Paired depth hands (container, copied))
              (located span ((withFuel setup (fuel + 1)).evaluate base) state)
              ((withFuel setup (fuel + 1)).evaluate base other) := by
            refine Outcome.Akin.locatedLeft ?_ span
            apply (Outcome.Akin.of_abreast
              ((quiet_abreast setup (fuel + 1)).evaluate quiet hands state other linked)).imp
            intro _ _ _ _ _ _ ended
            exact ended.lower.paired
          cases node with
          | reference name =>
              refine ⟨fuel + 1, le_rfl, Nat.le_succ _, ?_⟩
              rw [share_eq found, evaluate_eq found]
              exact (linked.share_variable setup name).located span span
          | index inner indices =>
              refine ⟨fuel + 1, le_rfl, Nat.le_succ _, ?_⟩
              rw [share_eq found, evaluate_eq found]
              refine Outcome.Akin.locatedLeft ?_ span
              exact linked.share_indexed (quiet_abreast setup fuel)
                fun operand member => quiet.operand found member
          | _ =>
              refine ⟨fuel + 1 + 1, Nat.le_succ _, le_rfl, ?_⟩
              rw [share_eq found (fuel + 1)]
              exact evaluated

end Nested

end ScriptEngine
