import ScriptEngine.Proofs.Control.Blame
import ScriptEngine.Proofs.Control.Stacks
import ScriptEngine.Proofs.Ownership.Likeness

/-!
# Quiet expressions

An expression is quiet if no call and no assignment is part of it.  Its evaluation
disturbs nothing, whether it gives a value or fails: bindings and stacks stay as
they are, and objects that live on differ in their counts alone.  Only literals may
be cached for the first time.
-/

namespace ScriptEngine

open Evaluation

/-! ## Heaps that differ in counts -/

/-- The same object, apart from its counts. -/
def Object.Alike (first second : Object) : Prop :=
  second = { first with slots := second.slots, handles := second.handles }

namespace Heap

/-- Objects that live on differ in their counts alone. -/
structure Preserves (before after : Heap) : Prop where
  size : before.cells.size ≤ after.cells.size
  object : ∀ {address later}, address < before.cells.size → after.get? address = some later →
    ∃ earlier, before.get? address = some earlier ∧ earlier.Alike later

variable {heap before middle after : Heap}

namespace Preserves

theorem refl (heap : Heap) : Preserves heap heap :=
  ⟨le_rfl, fun _ found => ⟨_, found, rfl⟩⟩

theorem trans (first : Preserves before middle) (second : Preserves middle after) :
    Preserves before after := by
  refine ⟨first.size.trans second.size, ?_⟩
  intro address later old found
  obtain ⟨between, present, alike⟩ := second.object (old.trans_le first.size) found
  obtain ⟨earlier, past, alike'⟩ := first.object old present
  refine ⟨earlier, past, ?_⟩
  rw [Object.Alike, alike, alike']

theorem survives (preserves : Preserves before after) : Survives before after := by
  refine ⟨preserves.size, ?_, ?_⟩
  · intro address payload old found
    obtain ⟨later, alive, rfl⟩ := payload?_eq_some_iff.mp found
    obtain ⟨earlier, past, alike⟩ := preserves.object old alive
    rw [payload?_of_get? past, alike]
  · intro address payload old found
    obtain ⟨later, alive, _⟩ := payload?_eq_some_iff.mp found
    obtain ⟨earlier, past, alike⟩ := preserves.object old alive
    rw [type, type, alive, past, alike]

theorem modify (heap : Heap) (address : Address) {change : Object → Object}
    (counts : ∀ object : Object, object.Alike (change object)) : Preserves heap (heap.modify address change) := by
  refine ⟨by rw [size_modify], ?_⟩
  intro other later _ found
  obtain ⟨earlier, past, rfl⟩ := get?_of_get?_modify found
  refine ⟨earlier, past, ?_⟩
  split
  · exact counts earlier
  · rfl

theorem retain (heap : Heap) (address : Address) : Preserves heap (heap.retain address) :=
  modify heap address fun _ => rfl

theorem enterSlot (heap : Heap) (address : Address) : Preserves heap (heap.enterSlot address) :=
  modify heap address fun _ => rfl

theorem leaveSlot (heap : Heap) (address : Address) : Preserves heap (heap.leaveSlot address) := by
  simp only [Heap.leaveSlot]
  split
  · have marked : Preserves heap { heap with underflowed := true } :=
      ⟨le_rfl, fun _ found => ⟨_, found, rfl⟩⟩
    exact marked.trans (modify _ address fun _ => rfl)
  · exact modify heap address fun _ => rfl

theorem erase (heap : Heap) (address : Address) : Preserves heap (heap.erase address) := by
  refine ⟨by simp [Heap.erase], ?_⟩
  intro other later _ found
  rw [get?_erase] at found
  split at found
  · simp at found
  · exact ⟨later, found, rfl⟩

theorem releaseAll (heap : Heap) (addresses : List Address) :
    Preserves heap (heap.releaseAll addresses) :=
  releaseAll_induction (motive := Preserves heap)
    (fun address preserves => preserves.trans (modify _ address fun _ => rfl))
    (fun _ preserves => preserves.trans (erase _ _))
    (fun address preserves => preserves.trans (leaveSlot _ address)) (refl heap) addresses

theorem allocate (heap : Heap) (type : StaticType) (payload : Payload) :
    Preserves heap (heap.allocate type payload).2 := by
  refine ⟨by rw [size_allocate]; exact Nat.le_succ _, ?_⟩
  intro address later old found
  rw [get?_allocate_of_lt old] at found
  exact ⟨later, found, rfl⟩

theorem crafting (start : Heap) : Crafting fun heap _ _ => Preserves start heap where
  enter preserves := preserves.trans (enterSlot _ _)
  leave preserves := preserves.trans (leaveSlot _ _)
  release preserves := preserves.trans (releaseAll _ _)
  allocate payload type preserves := preserves.trans (allocate _ type payload)

end Preserves

theorem Crafted.preserves {given made : Multiset Address}
    (crafted : Crafted heap given after made) : Preserves heap after :=
  @crafted _ (Preserves.crafting heap) 0 0 (Preserves.refl heap)

end Heap

/-! ## Evaluations that disturb nothing -/

namespace Heap

variable (heap : Heap) (value : Scalar)

theorem payload?_newScalar :
    (heap.newScalar value).2.payload? (heap.newScalar value).1 = some (.scalar value) :=
  payload?_of_get? (get?_allocate_self heap value.type (.scalar value))

theorem type_newScalar : (heap.newScalar value).2.type (heap.newScalar value).1 = value.type := by
  simp [Heap.type, newScalar, get?_allocate_self]

end Heap

namespace State

theorem getElem?_record (entries : Array (Option Address)) (position index : Nat)
    (address : Address) :
    (record entries position address)[index]?.join =
      if index = position then some address else entries[index]?.join := by
  unfold record
  split
  · rename_i inside
    rw [Array.getElem?_setIfInBounds]
    by_cases same : position = index
    · subst same
      simp [inside]
    · simp [same, Ne.symm same]
  · rename_i beyond
    have size : entries.size ≤ position := Nat.le_of_not_lt beyond
    have filled : (entries ++ Array.replicate (position - entries.size) none).size = position := by
      simp
      omega
    rw [Array.getElem?_push, filled]
    split
    · rfl
    · rw [Array.getElem?_append]
      split
      · rfl
      · rename_i later
        rw [Array.getElem?_replicate, Array.getElem?_eq_none (Nat.le_of_not_lt later)]
        split
        · rfl
        · rfl

theorem literal?_keepLiteral (state : State) (id : ExpressionId) (value : Scalar)
    (other : ExpressionId) :
    (state.keepLiteral id value).2.literal? other =
      if other.index = id.index then some state.heap.cells.size else state.literal? other :=
  getElem?_record state.literals id.index other.index _

/-- Bindings, stacks and the output are the same, and literals are new where none
were cached. -/
structure Aside (before after : State) : Prop where
  size : before.heap.cells.size ≤ after.heap.cells.size
  scopes : after.scopes = before.scopes
  calls : after.calls = before.calls
  loops : after.loops = before.loops
  output : after.output = before.output
  literals : ∀ {id address}, before.literal? id = some address → after.literal? id = some address
  fresh : ∀ {id address}, after.literal? id = some address →
    before.literal? id = some address ∨ before.literal? id = none ∧ before.heap.cells.size ≤ address

/-- Besides that, objects that are still there differ in their counts alone. -/
structure Undisturbed (before after : State) : Prop extends Aside before after where
  heap : before.heap.Preserves after.heap

variable {first second third : State}

theorem Aside.trans (before : first.Aside second) (after : second.Aside third) :
    first.Aside third := by
  refine ⟨before.size.trans after.size, after.scopes.trans before.scopes,
    after.calls.trans before.calls, after.loops.trans before.loops,
    after.output.trans before.output, fun found => after.literals (before.literals found), ?_⟩
  intro id address found
  rcases after.fresh found with old | ⟨missing, young⟩
  · exact before.fresh old
  · refine Or.inr ⟨?_, before.size.trans young⟩
    cases cached : first.literal? id with
    | none => rfl
    | some other =>
        rw [before.literals cached] at missing
        simp at missing

theorem Aside.onHeap (state : State) {heap : Heap}
    (grown : state.heap.cells.size ≤ heap.cells.size) : state.Aside { state with heap := heap } :=
  ⟨grown, rfl, rfl, rfl, rfl, fun found => found, Or.inl⟩

namespace Undisturbed

theorem onHeap (state : State) {heap : Heap} (preserves : state.heap.Preserves heap) :
    state.Undisturbed { state with heap := heap } :=
  ⟨.onHeap state preserves.size, preserves⟩

theorem refl (state : State) : state.Undisturbed state :=
  onHeap state (.refl _)

theorem trans (before : first.Undisturbed second) (after : second.Undisturbed third) :
    first.Undisturbed third :=
  ⟨before.toAside.trans after.toAside, before.heap.trans after.heap⟩

theorem releaseAll (state : State) (addresses : List Address) :
    state.Undisturbed (state.releaseAll addresses) :=
  onHeap state (.releaseAll _ _)

end Undisturbed

/-- Relations between the states before and after: steps add up, and objects may be made,
or go, or change their counts. -/
class Framing (relation : State → State → Prop) : Prop where
  trans : ∀ {first second third}, relation first second → relation second third →
    relation first third
  onHeap : ∀ (state : State) {heap : Heap}, state.heap.Preserves heap →
    relation state { state with heap := heap }

namespace Framing

variable {relation : State → State → Prop} [Framing relation] (state : State)

theorem refl : relation state state :=
  onHeap state (.refl _)

theorem releaseAll (addresses : List Address) : relation state (state.releaseAll addresses) :=
  onHeap state (.releaseAll _ _)

end Framing

instance : Framing Undisturbed := ⟨.trans, .onHeap⟩

/-- Besides that, what is new in the cache is a literal among some expressions, with the
object that it stands for. -/
structure Caches (program : Program) (among : ExpressionId → Prop) (before after : State) : Prop
    extends Undisturbed before after where
  cached : ∀ {id address}, before.literal? id = none → after.literal? id = some address →
    among id ∧ address < after.heap.cells.size ∧
      ∃ literal span, program.expression? id = some ⟨.literal literal, span⟩ ∧
        ∀ {payload}, after.heap.payload? address = some payload →
          payload = .scalar (literal.scalar program.names) ∧
            after.heap.type address = (literal.scalar program.names).type

instance {program : Program} {among : ExpressionId → Prop} : Framing (Caches program among) where
  trans := by
    intro first second third one another
    refine ⟨one.trans another.toUndisturbed, ?_⟩
    intro id address missing found
    cases known : second.literal? id with
    | none => exact another.cached known found
    | some other =>
        obtain rfl := Option.some.inj ((another.literals known).symm.trans found)
        obtain ⟨member, small, literal, span, present, stands⟩ := one.cached missing known
        refine ⟨member, small.trans_le another.size, literal, span, present, ?_⟩
        intro payload alive
        rw [another.heap.survives.type small alive]
        exact stands (another.heap.survives.payload small alive)
  onHeap := by
    intro state heap preserves
    refine ⟨.onHeap state preserves, ?_⟩
    intro id address missing found
    exact absurd (missing.symm.trans found) (by simp)

/-! ### Literals that are cached -/

variable {state : State} {id : ExpressionId}

theorem payload?_keepLiteral (state : State) (id : ExpressionId) (value : Scalar) :
    (state.keepLiteral id value).2.heap.payload? (state.keepLiteral id value).1 =
      some (.scalar value) :=
  (Heap.payload?_retain _ _ _).trans (state.heap.payload?_newScalar value)

theorem type_keepLiteral (state : State) (id : ExpressionId) (value : Scalar) :
    (state.keepLiteral id value).2.heap.type (state.keepLiteral id value).1 = value.type :=
  ((Heap.Remains.retain _ _).type (state.payload?_keepLiteral id value)).trans
    (state.heap.type_newScalar value)

theorem Undisturbed.keepLiteral (missing : state.literal? id = none) (value : Scalar) :
    state.Undisturbed (state.keepLiteral id value).2 := by
  have made := (Heap.Crafted.newScalar state.heap value).preserves
  have kept := made.trans (.retain _ (state.heap.newScalar value).1)
  have recorded := state.literal?_keepLiteral id value
  refine ⟨⟨kept.size, rfl, rfl, rfl, rfl, ?_, ?_⟩, kept⟩
  · intro other address cached
    have different : other.index ≠ id.index := by
      intro same
      rw [literal?, same] at cached
      rw [literal?, cached] at missing
      simp at missing
    exact (recorded other).trans ((if_neg different).trans cached)
  · intro other address cached
    have known := (recorded other).symm.trans cached
    split at known
    · rename_i same
      cases known
      refine Or.inr ⟨?_, le_rfl⟩
      rw [literal?, same]
      exact missing
    · exact Or.inl known

theorem Caches.keepLiteral {program : Program} {among : ExpressionId → Prop} {literal : Literal}
    {span : Span} (missing : state.literal? id = none) (member : among id)
    (found : program.expression? id = some ⟨.literal literal, span⟩) :
    Caches program among state (state.keepLiteral id (literal.scalar program.names)).2 := by
  refine ⟨.keepLiteral missing _, ?_⟩
  intro other address absent cached
  rw [state.literal?_keepLiteral id] at cached
  split at cached
  · rename_i same
    cases cached
    obtain rfl : other = id := congrArg ExpressionId.mk same
    have payload := state.payload?_keepLiteral other (literal.scalar program.names)
    refine ⟨member, Heap.lt_size_of_payload? payload, literal, span, found, ?_⟩
    intro content alive
    exact ⟨Option.some.inj (alive.symm.trans payload), state.type_keepLiteral other _⟩
  · exact absurd (absent.symm.trans cached) (by simp)

end State

namespace Evaluation

variable {α β : Type}

/-- However the evaluation ends, the states before and after are related. -/
def Respects (relation : State → State → Prop) (body : Evaluation α) : Prop :=
  ∀ start : State, Triple (· = start) body (fun _ => relation start) (relation start)

/-- However the evaluation ends, it has disturbed nothing. -/
abbrev Gentle (body : Evaluation α) : Prop :=
  body.Respects State.Undisturbed

namespace Respects

variable {relation : State → State → Prop} {body : Evaluation α}

theorem of_state? {state last : State} (respects : body.Respects relation)
    (ended : (body state).state? = some last) : relation state last :=
  (respects state).of_state? rfl ended

theorem of_value {state last : State} {result : α} (respects : body.Respects relation)
    (outcome : body state = .value result last) : relation state last :=
  respects.of_state? (by rw [outcome, Outcome.state?])

theorem of_failure {state last : State} {failure : Failure} (respects : body.Respects relation)
    (outcome : body state = .failure failure last) : relation state last :=
  respects.of_state? (by rw [outcome, Outcome.state?])

theorem located (respects : body.Respects relation) (span : Span) :
    (Evaluation.located span body).Respects relation :=
  fun start => (respects start).located

theorem imp {wider : State → State → Prop} (respects : body.Respects relation)
    (implies : ∀ {before after}, relation before after → wider before after) :
    body.Respects wider :=
  fun start => (respects start).weaken (fun _ same => same) (fun _ _ => implies) fun _ => implies

theorem stop {reason : Stop} (uninterrupted : reason ≠ .interrupted) :
    (Evaluation.stop reason : Evaluation α).Respects relation :=
  fun _ => Triple.stop uninterrupted

variable [State.Framing relation]

theorem bind {next : α → Evaluation β} (respects : body.Respects relation)
    (rest : ∀ result, (next result).Respects relation) : (body >>= next).Respects relation := by
  intro start
  apply Triple.bind (respects start)
  intro result middle kept
  apply (rest result middle).weaken (fun _ same => same) _ _ middle rfl
  · intro _ after left
    exact State.Framing.trans kept left
  · intro after left
    exact State.Framing.trans kept left

theorem holding (respects : body.Respects relation) (addresses : List Address) :
    (Evaluation.holding addresses body).Respects relation := by
  intro start
  apply Triple.ensuring
  apply (respects start).weaken fun _ same => same
  · intro _ after kept
    exact State.Framing.trans kept (State.Framing.releaseAll after addresses)
  · intro after kept
    exact State.Framing.trans kept (State.Framing.releaseAll after addresses)

theorem guarding (respects : body.Respects relation) (addresses : List Address) :
    (Evaluation.guarding addresses body).Respects relation := by
  intro start
  apply Triple.guarding
  apply (respects start).weaken fun _ same => same
  · intro _ after kept
    exact kept
  · intro after kept
    exact State.Framing.trans kept (State.Framing.releaseAll after addresses)

theorem pure (result : α) : (Pure.pure result : Evaluation α).Respects relation := by
  rintro start state rfl
  exact State.Framing.refl state

theorem fail (cause : Cause) : (Evaluation.fail cause : Evaluation α).Respects relation := by
  rintro start state rfl
  exact State.Framing.refl state

theorem read (view : State → α) : (Evaluation.read view).Respects relation := by
  rintro start state rfl
  exact State.Framing.refl state

theorem ofExcept (result : Except Cause α) : (Evaluation.ofExcept result).Respects relation := by
  cases result with
  | ok value => exact .pure value
  | error cause => exact .fail cause

theorem onHeap {action : Heap → α × Heap} (preserves : ∀ heap : Heap, heap.Preserves (action heap).2) :
    (Evaluation.onHeap action).Respects relation := by
  rintro start state rfl
  exact State.Framing.onHeap state (preserves state.heap)

theorem release (addresses : List Address) : (Evaluation.release addresses).Respects relation := by
  rintro start state rfl
  exact State.Framing.releaseAll state addresses

theorem retain (address : Address) : (Evaluation.retain address).Respects relation :=
  onHeap fun heap => .retain heap address

theorem newScalar (value : Scalar) : (Evaluation.newScalar value).Respects relation :=
  onHeap fun heap => (Heap.Crafted.newScalar heap value).preserves

theorem copy (address : Address) : (Evaluation.copy address).Respects relation :=
  onHeap fun heap => (Heap.Crafted.copy heap address).preserves

theorem recordedType (setup : Setup) (id : ExpressionId) :
    (Evaluation.recordedType setup id).Respects relation := by
  unfold Evaluation.recordedType
  split
  · exact .pure _
  · exact .fail _

/-! ### Operations -/

theorem applyArithmetic (operator : ArithmeticOperator) (left right : Address) :
    (Evaluation.applyArithmetic operator left right).Respects relation :=
  ((Respects.read _).bind fun result => (ofExcept result).bind fun value => newScalar value).holding _

theorem applyUnary (operator : UnaryOperator) (operand : Address) :
    (Evaluation.applyUnary operator operand).Respects relation := by
  refine Respects.holding ?_ [operand]
  refine (Respects.read _).bind fun result => (ofExcept result).bind fun value? => ?_
  cases value? with
  | some value => exact newScalar value
  | none => exact retain operand

theorem applyCast (source : Address) (target : StaticType) :
    (Evaluation.applyCast source target).Respects relation := by
  refine Respects.holding ?_ [source]
  refine (Respects.read _).bind fun result => (ofExcept result).bind fun conversion => ?_
  cases conversion with
  | computed value => exact newScalar value
  | duplicate => exact copy source

theorem readElement (container key : Address) :
    (Evaluation.readElement container key).Respects relation := by
  have reads : ∀ heap : Heap, heap.Preserves (heap.readElement container key).2 := by
    intro heap
    unfold Heap.readElement
    split
    · exact .releaseAll heap [key]
    · exact (Heap.Preserves.retain heap _).trans (.releaseAll _ [key])
  exact ((Respects.onHeap reads).holding [container]).bind fun result => ofExcept result

theorem shareVariable (setup : Setup) (name : Name) :
    (Evaluation.shareVariable setup name).Respects relation := by
  rintro start state rfl
  unfold Evaluation.shareVariable
  cases state.lookup? name with
  | some address => exact State.Framing.onHeap state (.retain _ address)
  | none => exact State.Framing.refl state

theorem variableCopy (setup : Setup) (name : Name) :
    (Evaluation.variableCopy setup name).Respects relation := by
  rintro start state rfl
  unfold Evaluation.variableCopy
  cases state.lookup? name with
  | some address => exact State.Framing.onHeap state (Heap.Crafted.copy state.heap address).preserves
  | none => exact State.Framing.refl state

/-! ### Chains of operands -/

variable {setup : Setup} {operands : Operands}

theorem arithmeticChain (rest : List (ArithmeticOperator × ExpressionId)) (left : Address)
    (respects : ∀ step ∈ rest, (operands.evaluate step.2).Respects relation) :
    (Evaluation.arithmeticChain operands left rest).Respects relation := by
  induction rest generalizing left with
  | nil => exact .pure left
  | cons first others induction =>
      apply ((respects first List.mem_cons_self).guarding [left]).bind
      intro right
      apply (applyArithmetic first.1 left right).bind
      intro result
      exact induction result fun step member => respects step (List.mem_cons_of_mem _ member)

theorem comparisonChain (rest : List (ComparisonOperator × ExpressionId)) (left : Address)
    (respects : ∀ step ∈ rest, (operands.evaluate step.2).Respects relation) :
    (Evaluation.comparisonChain operands left rest).Respects relation := by
  induction rest generalizing left with
  | nil => exact (newScalar _).holding [left]
  | cons first others induction =>
      apply ((respects first List.mem_cons_self).guarding [left]).bind
      intro right
      refine (Respects.read _).bind fun result => ((ofExcept result).guarding [left, right]).bind ?_
      intro agrees
      cases agrees with
      | true =>
          apply (Respects.release [left]).bind
          intro _
          exact induction right fun step member => respects step (List.mem_cons_of_mem _ member)
      | false => exact (newScalar _).holding [left, right]

theorem evaluateAll (ids : List ExpressionId)
    (respects : ∀ id ∈ ids, (operands.evaluate id).Respects relation) :
    (Evaluation.evaluateAll operands ids).Respects relation := by
  induction ids with
  | nil => exact .pure []
  | cons id others induction =>
      apply (respects id List.mem_cons_self).bind
      intro first
      have rest := induction fun other member => respects other (List.mem_cons_of_mem _ member)
      exact (rest.guarding [first]).bind fun addresses => .pure (first :: addresses)

theorem evaluatePairs (pairs : List (ExpressionId × ExpressionId))
    (respects : ∀ pair ∈ pairs,
      (operands.evaluate pair.1).Respects relation ∧ (operands.evaluate pair.2).Respects relation) :
    (Evaluation.evaluatePairs operands pairs).Respects relation := by
  induction pairs with
  | nil => exact .pure []
  | cons pair others induction =>
      obtain ⟨keyed, valued⟩ := respects pair List.mem_cons_self
      have rest := induction fun other member => respects other (List.mem_cons_of_mem _ member)
      apply keyed.bind
      intro key
      apply (valued.guarding [key]).bind
      intro value
      exact (rest.guarding [key, value]).bind fun entries => .pure ((key, value) :: entries)

theorem bound {id : ExpressionId} (respects : (operands.evaluate id).Respects relation) :
    (Evaluation.bound operands id).Respects relation :=
  respects.bind fun address =>
    ((Respects.read _).bind fun result => ofExcept result).holding [address]

theorem indexChain (indices : List ExpressionId) (container : Address)
    (respects : ∀ index ∈ indices, (operands.evaluate index).Respects relation) :
    (Evaluation.indexChain setup operands container indices).Respects relation := by
  induction indices generalizing container with
  | nil => exact .pure container
  | cons index others induction =>
      apply ((respects index List.mem_cons_self).guarding [container]).bind
      intro key
      apply ((readElement container key).located _).bind
      intro element
      exact induction element fun other member => respects other (List.mem_cons_of_mem _ member)

theorem shareIndexed {base : ExpressionId} {indices : List ExpressionId}
    (respects : ∀ operand ∈ base :: indices,
      (operands.evaluate operand).Respects relation ∧ (operands.share operand).Respects relation) :
    (Evaluation.shareIndexed setup operands base indices).Respects relation := by
  apply (respects base List.mem_cons_self).2.bind
  intro container
  exact indexChain indices container fun index member =>
    (respects index (List.mem_cons_of_mem _ member)).1

/-- A node respects what its operands do, if it is no call and no assignment, and if it
does as a literal. -/
theorem expression {invoke : FunctionId → List Address → Span → Evaluation Address}
    {id : ExpressionId} {node : Expression} {span : Span}
    (respects : ∀ operand ∈ node.operands,
      (operands.evaluate operand).Respects relation ∧ (operands.share operand).Respects relation)
    (callless : ∀ callee arguments, node ≠ .call callee arguments)
    (assignless : ∀ target value, node ≠ .assign target value)
    (literals : ∀ value, node = .literal value →
      (Evaluation.literal setup.program.names id value).Respects relation) :
    (Evaluation.expression setup operands invoke id node span).Respects relation := by
  cases node with
  | literal value => exact literals value rfl
  | reference name => exact (variableCopy setup name).located span
  | unary operator operand =>
      apply (respects operand List.mem_cons_self).1.bind
      intro address
      exact (applyUnary operator address).located span
  | arithmetic first rest =>
      refine Respects.located ?_ span
      apply (respects first List.mem_cons_self).1.bind
      intro left
      apply arithmeticChain rest left
      intro step member
      exact (respects step.2 (List.mem_cons_of_mem _ (List.mem_map_of_mem member))).1
  | comparison first rest =>
      refine Respects.located ?_ span
      apply (respects first List.mem_cons_self).1.bind
      intro left
      apply comparisonChain rest left
      intro step member
      exact (respects step.2 (List.mem_cons_of_mem _ (List.mem_map_of_mem member))).1
  | cast source =>
      apply (recordedType setup id).bind
      intro target
      apply (respects source List.mem_cons_self).1.bind
      intro address
      exact (applyCast address target).located span
  | vector elements =>
      refine Respects.located ?_ span
      apply (recordedType setup id).bind
      intro type
      apply (evaluateAll elements fun element member => (respects element member).1).bind
      intro addresses
      exact onHeap fun heap => (Heap.Crafted.newVector heap _ addresses).preserves
  | dict entries =>
      refine Respects.located ?_ span
      apply (recordedType setup id).bind
      intro type
      have paired : ∀ pair ∈ entries, (operands.evaluate pair.1).Respects relation ∧
          (operands.evaluate pair.2).Respects relation := by
        intro pair member
        have inside : ∀ operand ∈ [pair.1, pair.2], operand ∈ (Expression.dict entries).operands :=
          fun operand chosen => List.mem_flatMap.mpr ⟨pair, member, chosen⟩
        exact ⟨(respects pair.1 (inside pair.1 (by simp))).1,
          (respects pair.2 (inside pair.2 (by simp))).1⟩
      apply (evaluatePairs entries paired).bind
      intro pairs
      exact onHeap fun heap => (Heap.Crafted.newDict heap _ _ pairs).preserves
  | range start stop =>
      have inside : ∀ operand ∈ [start, stop], operand ∈ (Expression.range start stop).operands :=
        fun _ chosen => chosen
      apply (bound (respects start (inside start (by simp))).1).bind
      intro first
      apply (bound (respects stop (inside stop (by simp))).1).bind
      intro last
      exact newScalar _
  | index base indices =>
      have shared := @shareIndexed _ _ setup operands base indices respects
      exact shared.bind fun element => (copy element).holding [element]
  | call callee arguments => exact absurd rfl (callless callee arguments)
  | assign target value => exact absurd rfl (assignless target value)

end Respects

/-- A literal is cached at most where none was. -/
theorem literal_caches {program : Program} {among : ExpressionId → Prop} {id : ExpressionId}
    {value : Literal} {span : Span} (member : among id)
    (found : program.expression? id = some ⟨.literal value, span⟩) :
    (literal program.names id value).Respects (State.Caches program among) := by
  rintro start state rfl
  unfold literal
  cases known : state.literal? id with
  | some address => exact State.Framing.onHeap state (.retain _ address)
  | none => exact .keepLiteral known member found

end Evaluation

/-! ## Quiet expressions -/

namespace Program

variable {program : Program} {root : ExpressionId}

/-- The expressions that are part of another one, and that one itself. -/
inductive Within (program : Program) (root : ExpressionId) : ExpressionId → Prop where
  | root : Within program root root
  | operand {id operand : ExpressionId} {node : Expression} {span : Span} :
      Within program root id → program.expression? id = some ⟨node, span⟩ →
      operand ∈ node.operands → Within program root operand

/-- No call and no assignment is part of the expression. -/
def Quiet (program : Program) (root : ExpressionId) : Prop :=
  ∀ {id node span}, program.Within root id → program.expression? id = some ⟨node, span⟩ →
    (∀ callee arguments, node ≠ .call callee arguments) ∧
      ∀ target value, node ≠ .assign target value

theorem Within.of_operand {operand id : ExpressionId} {node : Expression} {span : Span}
    (found : program.expression? root = some ⟨node, span⟩) (member : operand ∈ node.operands)
    (within : program.Within operand id) : program.Within root id := by
  induction within with
  | root => exact .operand .root found member
  | operand _ present chosen induction => exact .operand induction present chosen

theorem Quiet.operand {operand : ExpressionId} {node : Expression} {span : Span}
    (quiet : program.Quiet root) (found : program.expression? root = some ⟨node, span⟩)
    (member : operand ∈ node.operands) : program.Quiet operand :=
  fun within present => quiet (within.of_operand found member) present

/-- A node is quiet if its operands are. -/
theorem Quiet.of_operands {node : Expression} {span : Span}
    (found : program.expression? root = some ⟨node, span⟩)
    (callless : ∀ callee arguments, node ≠ .call callee arguments)
    (assignless : ∀ target value, node ≠ .assign target value)
    (operands : ∀ operand ∈ node.operands, program.Quiet operand) : program.Quiet root := by
  have inside : ∀ {id}, program.Within root id →
      id = root ∨ ∃ operand ∈ node.operands, program.Within operand id := by
    intro id within
    induction within with
    | root => exact Or.inl rfl
    | @operand id operand _ _ _ present chosen induction =>
        rcases induction with rfl | ⟨first, member, path⟩
        · cases found.symm.trans present
          exact Or.inr ⟨operand, chosen, .root⟩
        · exact Or.inr ⟨first, member, .operand path present chosen⟩
  intro id other span' within present
  rcases inside within with rfl | ⟨operand, member, path⟩
  · cases found.symm.trans present
    exact ⟨callless, assignless⟩
  · exact operands operand member path present

end Program

namespace Nested

variable {setup : Setup} {id : ExpressionId}

/-- The evaluation of a quiet expression respects what its literals do. -/
theorem respects {relation : State → State → Prop} [State.Framing relation]
    (quiet : setup.program.Quiet id)
    (literals : ∀ {part value span}, setup.program.Within id part →
      setup.program.expression? part = some ⟨.literal value, span⟩ →
        (literal setup.program.names part value).Respects relation) (fuel : Nat) :
    ((withFuel setup fuel).evaluate id).Respects relation ∧
      ((withFuel setup fuel).share id).Respects relation := by
  induction fuel generalizing id with
  | zero => exact ⟨.stop (by simp), .stop (by simp)⟩
  | succ fuel induction =>
      show (withExpression setup id _).Respects relation ∧
        (withExpression setup id _).Respects relation
      unfold withExpression
      cases found : setup.program.expression? id with
      | none => exact ⟨.stop (by simp), .stop (by simp)⟩
      | some entry =>
          obtain ⟨node, span⟩ := entry
          obtain ⟨callless, assignless⟩ := quiet .root found
          have operands : ∀ operand ∈ node.operands, _ := fun operand member =>
            induction (quiet.operand found member)
              fun within => literals (within.of_operand found member)
          refine ⟨Respects.expression operands callless assignless ?_, Respects.located ?_ span⟩
          · rintro value rfl
            exact literals .root found
          · cases node with
            | reference name => exact .shareVariable setup name
            | index base indices => exact Respects.shareIndexed operands
            | _ => exact (induction quiet literals).1

/-- Only literals that are part of a quiet expression are cached by its evaluation. -/
theorem caches (quiet : setup.program.Quiet id) (fuel : Nat) :
    ((withFuel setup fuel).evaluate id).Respects
        (State.Caches setup.program (setup.program.Within id)) ∧
      ((withFuel setup fuel).share id).Respects
        (State.Caches setup.program (setup.program.Within id)) :=
  respects quiet (fun within found => literal_caches within found) fuel

/-- The evaluation of a quiet expression disturbs nothing. -/
theorem gentle (quiet : setup.program.Quiet id) (fuel : Nat) :
    ((withFuel setup fuel).evaluate id).Gentle ∧ ((withFuel setup fuel).share id).Gentle :=
  respects quiet (fun within found => (literal_caches within found).imp fun kept => kept.toUndisturbed) fuel

end Nested

end ScriptEngine
