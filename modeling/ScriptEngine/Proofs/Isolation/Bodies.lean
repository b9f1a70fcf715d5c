import ScriptEngine.Proofs.Isolation.Lifting

/-!
# Nodes above callers

Every kind of node lifts if the nodes inside it do.  Within the body of a call a name is
found in the same frame, raised, or in the root frame, a signal reaches the frames of the
call alone, and a place in a frame is raised with the frame.
-/

namespace ScriptEngine

namespace Callers

/-- A place in a frame is raised with the frame. -/
def raisePlace (callers : Callers) : Place → Place
  | .binding depth name => .binding (callers.raise depth) name
  | .element vector position => .element vector position
  | .entry dict position => .entry dict position

variable {callers : Callers} {height : Height} {state lifted : State}

@[simp] theorem handles_raisePlace (place : Place) :
    (callers.raisePlace place).handles = place.handles := by
  cases place with
  | binding depth name => rfl
  | element vector position => rfl
  | entry dict position => rfl

/-! ## Places -/

namespace LiftScopes

variable {scopes lifted : Scopes} {heap other : Heap}

theorem load (lifts : callers.LiftScopes scopes lifted) (same : heap.Resembles other)
    (place : Place) : (callers.raisePlace place).load lifted other = place.load scopes heap := by
  cases place with
  | binding depth name => simp only [raisePlace, Place.load, lifts.get?_raise]
  | element vector position => simp only [raisePlace, Place.load, same.payload?_eq, same.kind_eq]
  | entry dict position => simp only [raisePlace, Place.load, same.payload?_eq, same.kind_eq]

theorem point (lifts : callers.LiftScopes scopes lifted) (same : heap.Resembles other)
    (place : Place) (value : Address) :
    callers.LiftScopes (place.point scopes heap value).1
        ((callers.raisePlace place).point lifted other value).1 ∧
      (place.point scopes heap value).2.Resembles
        ((callers.raisePlace place).point lifted other value).2 ∧
      (place.point scopes heap value).1.nested.size = scopes.nested.size := by
  cases place with
  | binding depth name =>
      refine ⟨lifts.modifyFrame depth _, same, ?_⟩
      cases depth with
      | zero => rfl
      | succ depth => simp [Place.point, Scopes.modifyFrame]
  | element vector position =>
      simp only [raisePlace, Place.point, same.payload?_eq]
      split
      · exact ⟨lifts, same.setPayload _ _, rfl⟩
      · exact ⟨lifts, same, rfl⟩
  | entry dict position =>
      simp only [raisePlace, Place.point, same.payload?_eq]
      split
      · exact ⟨lifts, same.setPayload _ _, rfl⟩
      · exact ⟨lifts, same, rfl⟩

end LiftScopes

/-! ## Frames -/

namespace Lift

theorem frames (lift : callers.Lift height state lifted) {scopes other : Scopes}
    (lifts : callers.LiftScopes scopes other) (size : scopes.nested.size = state.scopes.nested.size) :
    callers.Lift height { state with scopes := scopes } { lifted with scopes := other } := by
  refine ⟨lifts, lift.loops, lift.calls, lift.heap, lift.literals, lift.output, ?_⟩
  rw [← lift.height]
  exact congrArg (Height.mk · _ _) size

theorem pushScope (lift : callers.Lift height state lifted) :
    callers.Lift height.inScope { state with scopes := state.scopes.push }
      { lifted with scopes := lifted.scopes.push } := by
  refine ⟨lift.scopes.push, lift.loops, lift.calls, lift.heap, lift.literals, lift.output, ?_⟩
  rw [← lift.height]
  simp [State.height, Height.inScope, Scopes.push]

theorem popScope (lift : callers.Lift height.inScope state lifted) :
    callers.Lift height (state.onStorage fun scopes heap => ((), scopes.pop heap)).2
      (lifted.onStorage fun scopes heap => ((), scopes.pop heap)).2 := by
  have size : state.scopes.nested.size = height.scopes + 1 := congrArg Height.scopes lift.height
  have above : 0 < state.scopes.nested.size := by omega
  have last := lift.scopes.back? above
  cases found : state.scopes.nested.back? with
  | none => simp [Array.back?_eq_none_iff.mp found] at above
  | some frame =>
      rw [found] at last
      simp only [State.onStorage, Scopes.pop_of_back? found, Scopes.pop_of_back? last]
      refine ⟨lift.scopes.dropFrame above, lift.loops, lift.calls, lift.heap.dropSlots _,
        lift.literals, lift.output, ?_⟩
      have loops : state.loops.depth = height.loops := congrArg Height.loops lift.height
      have calls : state.calls.depth = height.calls := congrArg Height.calls lift.height
      simp [State.height, Scopes.dropFrame, loops, calls, size]

theorem pushLoop (lift : callers.Lift height state lifted) :
    callers.Lift height.inLoop
      { state with loops := state.loops.push { scopeDepth := state.scopes.depth } }
      { lifted with loops := lifted.loops.push { scopeDepth := lifted.scopes.depth } } := by
  have above : 0 < state.scopes.depth := state.scopes.depth_pos
  rw [lift.scopes.depth]
  refine ⟨lift.scopes, lift.loops.push above, lift.calls, lift.heap, lift.literals, lift.output, ?_⟩
  rw [← lift.height]
  simp [State.height, Height.inLoop, Loops.push, Loops.depth]

theorem popLoop (lift : callers.Lift height.inLoop state lifted) :
    callers.Lift height { state with loops := state.loops.pop }
      { lifted with loops := lifted.loops.pop } := by
  have depth : state.loops.depth = height.loops + 1 := congrArg Height.loops lift.height
  refine ⟨lift.scopes, lift.loops.pop (by omega), lift.calls, lift.heap, lift.literals, lift.output,
    ?_⟩
  have scopes : state.scopes.nested.size = height.scopes := congrArg Height.scopes lift.height
  have calls : state.calls.depth = height.calls := congrArg Height.calls lift.height
  simp only [Loops.depth] at depth
  simp [State.height, Loops.pop, Loops.depth, scopes, calls, depth]

end Lift

namespace Lifts

open Evaluation

variable {α β : Type} {view : α → β} {body : Evaluation α} {other : Evaluation β}

theorem inScope (lifts : callers.Lifts height.inScope view body other) :
    callers.Lifts height view (Evaluation.inScope body) (Evaluation.inScope other) :=
  lifts.ensuring (fun lift => lift.pushScope) fun lift => lift.popScope

theorem inLoop (lifts : callers.Lifts height.inLoop view body other) :
    callers.Lifts height view (Evaluation.inLoop body) (Evaluation.inLoop other) :=
  lifts.ensuring (fun lift => lift.pushLoop) fun lift => lift.popLoop

theorem declare (inside : height.Inside) (name : Name) (value : Address) :
    callers.Alike height (Evaluation.declare name value) := by
  intro state lifted lift
  have above := lift.scopes_pos inside
  have position : lifted.scopes.nested.size = callers.raise state.scopes.nested.size := by
    rw [lift.scopes.size, callers.raise_of_pos above]
  simp only [Evaluation.declare, State.onStorage, Scopes.declare, position, lift.scopes.get?_raise]
  have framed := lift.frames (lift.scopes.modifyFrame state.scopes.nested.size (·.put name value))
    (by
      obtain ⟨count, size⟩ := Nat.exists_eq_succ_of_ne_zero (Nat.ne_of_gt above)
      simp [size, Scopes.modifyFrame])
  exact .value (framed.onHeap ((lift.heap.enterSlot value).dropSlots _))

end Lifts

/-! ## Expressions -/

/-- The nodes inside a node lift. -/
structure OperandsLift (callers : Callers) (height : Height) (operands : Operands) : Prop where
  evaluate : ∀ id, callers.Alike height (operands.evaluate id)
  share : ∀ id, callers.Alike height (operands.share id)
  target : ∀ id, callers.Lifts height callers.raisePlace (operands.target id) (operands.target id)

section Expressions

open Evaluation

variable {setup : Setup} {operands : Operands}

theorem literal_lifts (names : Interner) (id : ExpressionId) (value : Literal) :
    callers.Alike height (literal names id value) := by
  intro state lifted lift
  have kept : lifted.literal? id = state.literal? id := by
    rw [State.literal?, State.literal?, lift.literals]
  simp only [literal, kept]
  cases state.literal? id with
  | some address => exact Lifts.retain address state lifted lift
  | none =>
      obtain ⟨address, same⟩ := lift.heap.newScalar (value.scalar names)
      simp only [State.keepLiteral, State.onHeap, address, lift.literals]
      exact .value ⟨lift.scopes, lift.loops, lift.calls, same.retain _, rfl, lift.output,
        lift.height⟩

theorem applyArithmetic_lifts (operator : ArithmeticOperator) (left right : Address) :
    callers.Alike height (applyArithmetic operator left right) := by
  apply Lifts.holding
  apply Lifts.bind (Lifts.read fun lift => by simp only [lift.heap.payload?_eq])
  intro result
  apply Lifts.bind (Lifts.ofExcept _)
  exact fun value => Lifts.newScalar value

theorem arithmeticChain_lifts (inner : callers.OperandsLift height operands)
    (rest : List (ArithmeticOperator × ExpressionId)) (left : Address) :
    callers.Alike height (arithmeticChain operands left rest) := by
  induction rest generalizing left with
  | nil => exact Lifts.pure left
  | cons link rest induction =>
      apply Lifts.bind ((inner.evaluate link.2).guarding _)
      intro right
      apply Lifts.bind (applyArithmetic_lifts link.1 left right)
      exact fun result => induction result

theorem comparisonChain_lifts (inner : callers.OperandsLift height operands)
    (rest : List (ComparisonOperator × ExpressionId)) (left : Address) :
    callers.Alike height (comparisonChain operands left rest) := by
  induction rest generalizing left with
  | nil => exact (Lifts.newScalar _).holding _
  | cons link rest induction =>
      apply Lifts.bind ((inner.evaluate link.2).guarding _)
      intro right
      apply Lifts.bind (Lifts.read fun lift => lift.heap.comparison_eq link.1 left right)
      intro result
      apply Lifts.bind ((Lifts.ofExcept result).guarding _)
      intro holds
      split
      · exact Lifts.bind (Lifts.release _) fun _ => induction right
      · exact (Lifts.newScalar _).holding _

theorem applyUnary_lifts (operator : UnaryOperator) (operand : Address) :
    callers.Alike height (applyUnary operator operand) := by
  apply Lifts.holding
  apply Lifts.bind (Lifts.read fun lift => by simp only [lift.heap.payload?_eq])
  intro result
  apply Lifts.bind (Lifts.ofExcept result)
  intro value?
  cases value? with
  | some value => exact Lifts.newScalar value
  | none => exact Lifts.retain operand

theorem applyCast_lifts (source : Address) (target : StaticType) :
    callers.Alike height (applyCast source target) := by
  apply Lifts.holding
  apply Lifts.bind (Lifts.read fun lift => by simp only [lift.heap.payload?_eq])
  intro result
  apply Lifts.bind (Lifts.ofExcept result)
  intro conversion
  cases conversion with
  | computed value => exact Lifts.newScalar value
  | duplicate => exact Lifts.copy source

theorem evaluateAll_lifts (inner : callers.OperandsLift height operands)
    (ids : List ExpressionId) :
    callers.Alike height (evaluateAll operands ids) := by
  induction ids with
  | nil => exact Lifts.pure _
  | cons first others induction =>
      apply Lifts.bind (inner.evaluate first)
      intro address
      apply Lifts.bind (induction.guarding _)
      exact fun addresses => Lifts.pure _

theorem evaluatePairs_lifts (inner : callers.OperandsLift height operands)
    (pairs : List (ExpressionId × ExpressionId)) :
    callers.Alike height (evaluatePairs operands pairs) := by
  induction pairs with
  | nil => exact Lifts.pure _
  | cons pair others induction =>
      apply Lifts.bind (inner.evaluate pair.1)
      intro key
      apply Lifts.bind ((inner.evaluate pair.2).guarding _)
      intro value
      apply Lifts.bind (induction.guarding _)
      exact fun addresses => Lifts.pure _

/-! ## Containers and ranges -/

theorem recordedType_lifts (id : ExpressionId) : callers.Alike height (recordedType setup id) := by
  unfold recordedType
  cases setup.program.types.expression? id with
  | some type => exact Lifts.pure type
  | none => exact Lifts.fail _

theorem vector_lifts (inner : callers.OperandsLift height operands) (id : ExpressionId)
    (elements : List ExpressionId) : callers.Alike height (vector setup operands id elements) := by
  apply Lifts.bind (recordedType_lifts id)
  intro type
  apply Lifts.bind (evaluateAll_lifts inner elements)
  exact fun addresses => Lifts.onHeap fun same => same.newVector _ addresses

theorem dict_lifts (inner : callers.OperandsLift height operands) (id : ExpressionId)
    (entries : List (ExpressionId × ExpressionId)) :
    callers.Alike height (dict setup operands id entries) := by
  apply Lifts.bind (recordedType_lifts id)
  intro type
  apply Lifts.bind (evaluatePairs_lifts inner entries)
  exact fun pairs => Lifts.onHeap fun same => same.newDict _ _ pairs

theorem bound_lifts (inner : callers.OperandsLift height operands) (id : ExpressionId) :
    callers.Alike height (bound operands id) := by
  apply Lifts.bind (inner.evaluate id)
  intro address
  apply Lifts.holding
  apply Lifts.bind (Lifts.read fun lift => by simp only [lift.heap.scalar?_eq, lift.heap.kind_eq])
  exact fun result => Lifts.ofExcept result

theorem range_lifts (inner : callers.OperandsLift height operands) (start stop : ExpressionId) :
    callers.Alike height (range operands start stop) := by
  apply Lifts.bind (bound_lifts inner start)
  intro first
  apply Lifts.bind (bound_lifts inner stop)
  exact fun last => Lifts.newScalar _

/-! ## Variables and indices -/

theorem shareVariable_lifts (inside : height.Inside) (name : Name) :
    callers.Alike height (shareVariable setup name) := by
  intro state lifted lift
  simp only [shareVariable, lift.lookup? inside name]
  cases state.lookup? name with
  | some address => exact Lifts.retain address state lifted lift
  | none => exact Lifts.fail _ state lifted lift

theorem variableCopy_lifts (inside : height.Inside) (name : Name) :
    callers.Alike height (variableCopy setup name) := by
  intro state lifted lift
  simp only [variableCopy, lift.lookup? inside name]
  cases state.lookup? name with
  | some address => exact Lifts.copy address state lifted lift
  | none => exact Lifts.fail _ state lifted lift

theorem readElement_lifts (container key : Address) :
    callers.Alike height (readElement container key) := by
  apply Lifts.bind ((Lifts.onHeap fun same => same.readElement container key).holding _)
  exact fun result => Lifts.ofExcept result

theorem indexChain_lifts (inner : callers.OperandsLift height operands)
    (indices : List ExpressionId) (container : Address) :
    callers.Alike height (indexChain setup operands container indices) := by
  induction indices generalizing container with
  | nil => exact Lifts.pure container
  | cons index others induction =>
      apply Lifts.bind ((inner.evaluate index).guarding _)
      intro key
      apply Lifts.bind ((readElement_lifts container key).located _)
      exact fun element => induction element

theorem shareIndexed_lifts (inner : callers.OperandsLift height operands) (base : ExpressionId)
    (indices : List ExpressionId) : callers.Alike height (shareIndexed setup operands base indices) :=
  Lifts.bind (inner.share base) fun container => indexChain_lifts inner indices container

/-! ## Assignments -/

theorem loadPlace_lifts (place : Place) :
    callers.Lifts height (fun address => address) (loadPlace place)
      (loadPlace (callers.raisePlace place)) := by
  have loads : callers.Lifts height (fun result => result)
      (Evaluation.read fun state => place.load state.scopes state.heap)
      (Evaluation.read fun state => (callers.raisePlace place).load state.scopes state.heap) :=
    Lifts.readRaised fun lift => lift.scopes.load lift.heap place
  apply Lifts.bind loads
  intro result
  apply Lifts.bind (Lifts.ofExcept result)
  exact fun address => Lifts.retain address

/-- A place in a container is in no frame. -/
theorem raisePlace_of_locate {heap : Heap} {container key : Address} {access : Access}
    {place : Place} (located : (heap.locate container key access).1 = .ok place) :
    callers.raisePlace place = place := by
  unfold Heap.locate at located
  split at located
  · cases located
  · cases located
    rfl
  · cases located
    rfl
  · cases access with
    | read => cases located
    | write =>
        cases located
        rfl

theorem locateForWriting_lifts (container key : Address) :
    callers.Lifts height callers.raisePlace (locateForWriting container key)
      (locateForWriting container key) := by
  intro state lifted lift
  obtain ⟨result, same⟩ := lift.heap.locate container key .write
  unfold locateForWriting
  rw [bind_run, bind_run]
  simp only [Evaluation.onHeap, State.onHeap, result]
  cases found : (lifted.heap.locate container key .write).1 with
  | error cause => exact .failure ⟨rfl, rfl⟩ (lift.onHeap same)
  | ok place =>
      have ended := @Outcome.Lifts.value _ _ callers.raisePlace _ place _ _ (lift.onHeap same)
      rwa [raisePlace_of_locate found] at ended

theorem placeChain_lifts (inner : callers.OperandsLift height operands)
    (indices : List ExpressionId) (place : Place) :
    callers.Lifts height callers.raisePlace (placeChain setup operands place indices)
      (placeChain setup operands (callers.raisePlace place) indices) := by
  induction indices generalizing place with
  | nil => exact Lifts.pure place
  | cons index others induction =>
      simp only [placeChain, handles_raisePlace]
      apply Lifts.bind
      · apply Lifts.holding
        apply Lifts.bind (loadPlace_lifts place)
        intro container
        apply Lifts.holding
        apply Lifts.bind (inner.evaluate index)
        exact fun key => (locateForWriting_lifts container key).located _
      · exact fun next => induction next

theorem bindingPlace_lifts (inside : height.Inside) (name : Name) :
    callers.Lifts height callers.raisePlace (bindingPlace setup name) (bindingPlace setup name) := by
  apply Lifts.bind (Lifts.readRaised fun lift => lift.resolve? inside name)
  intro found
  cases found with
  | some depth => exact Lifts.pure _
  | none => exact Lifts.fail _

theorem indexedPlace_lifts (inner : callers.OperandsLift height operands) (base : ExpressionId)
    (indices : List ExpressionId) :
    callers.Lifts height callers.raisePlace (indexedPlace setup operands base indices)
      (indexedPlace setup operands base indices) :=
  Lifts.bind (inner.target base) fun place => placeChain_lifts inner indices place

theorem storeIn_lifts (place : Place) (value : Address) :
    callers.Lifts height (fun done => done) (storeIn place value)
      (storeIn (callers.raisePlace place) value) := by
  have stores : callers.Lifts height (fun result => result)
      (fun state => Outcome.value (state.onStorage fun scopes heap =>
          place.store scopes heap value).1
        (state.onStorage fun scopes heap => place.store scopes heap value).2)
      (fun state => Outcome.value (state.onStorage fun scopes heap =>
          (callers.raisePlace place).store scopes heap value).1
        (state.onStorage fun scopes heap =>
          (callers.raisePlace place).store scopes heap value).2) := by
    intro state lifted lift
    simp only [State.onStorage, Place.store, lift.scopes.load lift.heap]
    cases place.load state.scopes state.heap with
    | error cause => exact .value lift
    | ok previous =>
        obtain ⟨scopes, heap, size⟩ := lift.scopes.point (lift.heap.enterSlot value) place value
        exact .value ((lift.frames scopes size).onHeap (heap.leaveSlot previous))
  apply Lifts.bind stores
  intro result
  cases result with
  | ok previous => exact Lifts.release _
  | error cause => exact Lifts.bind (Lifts.release _) fun _ => Lifts.fail cause

theorem assign_lifts (inner : callers.OperandsLift height operands) (target value : ExpressionId) :
    callers.Alike height (assign operands target value) := by
  apply Lifts.bind (inner.target target)
  intro place
  rw [handles_raisePlace]
  apply Lifts.holding
  apply Lifts.bind (inner.evaluate value)
  intro stored
  apply Lifts.bind (Lifts.copy stored)
  intro result
  apply Lifts.bind ((storeIn_lifts place stored).guarding _)
  exact fun _ => Lifts.pure result

end Expressions

/-! ## Statements -/

structure NestedLift (callers : Callers) (nested : Nested) : Prop where
  operands : ∀ height : Height, height.Inside → callers.OperandsLift height nested.toOperands
  execute : ∀ (height : Height), height.Inside → ∀ id : StatementId,
    callers.Alike height (nested.execute id)

section Statements

open Evaluation

variable {setup : Setup} {operands : Operands} {nested : Nested}

theorem condition_lifts (inner : callers.OperandsLift height operands) (id : ExpressionId) :
    callers.Alike height (condition setup operands id) := by
  apply Lifts.bind (inner.evaluate id)
  intro address
  apply Lifts.holding
  apply Lifts.bind (Lifts.read fun lift => by simp only [lift.heap.scalar?_eq, lift.heap.kind_eq])
  exact fun result => (Lifts.ofExcept result).located _

theorem declareVariable_lifts (inside : height.Inside)
    (inner : callers.OperandsLift height operands) (id : StatementId) (name : Name)
    (value : Option ExpressionId) :
    callers.Alike height (declareVariable setup operands id name value) := by
  have initial : callers.Alike height (initialValue setup operands id value) := by
    unfold initialValue
    cases value with
    | some value => exact inner.evaluate value
    | none =>
        cases setup.program.types.declaration? id with
        | some type => exact Lifts.onHeap fun same => same.newDefault type
        | none => exact Lifts.fail _
  exact Lifts.bind initial fun address => Lifts.declare inside name address

theorem resultValue_lifts (inside : height.Inside) (inner : callers.OperandsLift height operands)
    (value : Option ExpressionId) : callers.Alike height (resultValue operands value) := by
  apply Lifts.bind
  · apply Lifts.read
    intro state lifted lift
    obtain ⟨frame, found, found', _⟩ := lift.calls.current? (lift.calls_pos inside)
    rw [found, found']
    rfl
  · intro outside
    split
    · exact Lifts.fail _
    · cases value with
      | some id => exact inner.evaluate id
      | none => exact Lifts.newScalar _

theorem sequence_lifts (inside : height.Inside) (inner : callers.NestedLift nested)
    (statements : List StatementId) : callers.Alike height (sequence nested statements) := by
  induction statements with
  | nil => exact Lifts.pure ()
  | cons statement others induction =>
      apply Lifts.bind (inner.execute height inside statement)
      intro _
      apply Lifts.bind (Lifts.read fun lift => (lift.hasSignal inside).symm)
      intro stops
      split
      · exact Lifts.pure ()
      · exact induction

theorem block_lifts (inside : height.Inside) (inner : callers.NestedLift nested) (body : Block) :
    callers.Alike height (block nested body) :=
  Lifts.inScope (sequence_lifts inside.inScope inner body.statements)

theorem iteration_lifts (inside : height.Inside) (inner : callers.NestedLift nested)
    (binding : Option (Name × Address)) (body : Block) :
    callers.Alike height (iteration nested binding body) := by
  have runs : callers.Alike height.inScope (sequence nested body.statements >>= fun _ =>
      Evaluation.read fun state => !state.loopFinished) := by
    apply Lifts.bind (sequence_lifts inside.inScope inner body.statements)
    intro _
    exact Lifts.read fun lift => congrArg (!·) (lift.loopFinished inside.inScope).symm
  apply Lifts.inScope
  cases binding with
  | none => exact runs
  | some pair => exact Lifts.bind (Lifts.declare inside.inScope pair.1 pair.2) fun _ => runs

theorem forEachFrom_lifts (inside : height.Inside) (inner : callers.NestedLift nested) (name : Name)
    (body : Block) (count : Nat) (items : Items) :
    callers.Alike height (forEachFrom nested name body count items) := by
  induction count generalizing items with
  | zero => exact Lifts.stop _
  | succ count induction =>
      apply Lifts.bind (Lifts.onHeap fun same => same.next? items)
      intro next
      cases next with
      | none => exact Lifts.pure ()
      | some pair =>
          apply Lifts.bind (iteration_lifts inside inner _ body)
          intro goes
          split
          · exact induction pair.2
          · exact Lifts.pure ()

theorem forEach_lifts (inside : height.Inside) (inner : callers.NestedLift nested) (name : Name)
    (iterable : ExpressionId) (body : Block) :
    callers.Alike height (forEach setup nested name iterable body) := by
  have loops := fun items => Lifts.inLoop
    (forEachFrom_lifts inside.inLoop inner name body nested.iterations items)
  apply Lifts.bind ((inner.operands height inside).evaluate iterable)
  intro source
  apply Lifts.bind (Lifts.read fun lift => lift.heap.items_eq source)
  intro items?
  split
  · exact Lifts.bind (Lifts.release _) fun _ => loops _
  · exact (loops _).holding _
  · apply Lifts.holding
    apply Lifts.bind (Lifts.read fun lift => lift.heap.kind_eq source)
    exact fun kind => (Lifts.fail _).located _

theorem whileFrom_lifts (inside : height.Inside) (inner : callers.NestedLift nested)
    (test : ExpressionId) (body : Block) (count : Nat) :
    callers.Alike height (whileFrom setup nested test body count) := by
  induction count with
  | zero => exact Lifts.stop _
  | succ count induction =>
      apply Lifts.bind (condition_lifts (inner.operands height inside) test)
      intro holds
      split
      · apply Lifts.bind (iteration_lifts inside inner none body)
        intro goes
        split
        · exact induction
        · exact Lifts.pure ()
      · exact Lifts.pure ()

theorem doWhileFrom_lifts (inside : height.Inside) (inner : callers.NestedLift nested)
    (body : Block) (test : ExpressionId) (count : Nat) :
    callers.Alike height (doWhileFrom setup nested body test count) := by
  induction count with
  | zero => exact Lifts.stop _
  | succ count induction =>
      apply Lifts.bind (iteration_lifts inside inner none body)
      intro goes
      split
      · apply Lifts.bind (condition_lifts (inner.operands height inside) test)
        intro holds
        split
        · exact induction
        · exact Lifts.pure ()
      · exact Lifts.pure ()

theorem foreverFrom_lifts (inside : height.Inside) (inner : callers.NestedLift nested)
    (body : Block) (count : Nat) : callers.Alike height (foreverFrom nested body count) := by
  induction count with
  | zero => exact Lifts.stop _
  | succ count induction =>
      apply Lifts.bind (iteration_lifts inside inner none body)
      intro goes
      split
      · exact induction
      · exact Lifts.pure ()

/-! ## Signals -/

theorem breakLoop_lifts (inside : height.Inside) : callers.Alike height breakLoop := by
  intro state lifted lift
  simp only [breakLoop, lift.calls.loopBase (lift.calls_pos inside)]
  rcases lift.loops.break? state.calls.loopBase with
    ⟨none, none'⟩ | ⟨marked, marked', some, some', lifts, depth⟩
  · rw [none, none']
    exact Lifts.fail _ state lifted lift
  · rw [some, some']
    refine .value ⟨lift.scopes, lifts, lift.calls, lift.heap, lift.literals, lift.output, ?_⟩
    rw [← lift.height]
    exact congrArg (Height.mk _ · _) depth

theorem continueLoop_lifts (inside : height.Inside) : callers.Alike height continueLoop := by
  intro state lifted lift
  simp only [continueLoop, lift.innermost? inside]
  cases found : state.loops.innermost? state.calls.loopBase with
  | none => exact Lifts.fail _ state lifted lift
  | some frame =>
      have above := lift.loops.innermost_above found
      refine .value (lift.frames (lift.scopes.skipFrom above) ?_)
      simpa [Scopes.depth] using Scopes.depth_skipFrom state.scopes frame.scopeDepth

theorem setResult_lifts (inside : height.Inside) (value : Address) :
    callers.Alike height (setResult value) := by
  intro state lifted lift
  have active := lift.calls_pos inside
  obtain ⟨frame, found, found', above⟩ := lift.calls.current? active
  have pinned := lift.heap.setPinned value true
  simp only [setResult, found, found', State.onHeap]
  refine .value ⟨lift.scopes, lift.loops, lift.calls.modifyCurrent active above, ?_, lift.literals,
    lift.output, ?_⟩
  · show Heap.Resembles (frame.setResult state.heap value).2
      ((callers.raiseCall frame).setResult lifted.heap value).2
    unfold CallFrame.setResult
    cases known : frame.result with
    | none => simpa [raiseCall, known] using pinned
    | some previous => simpa [raiseCall, known] using (pinned.setPinned previous false).release _
  · rw [← lift.height]
    simp [State.height, Calls.modifyCurrent, Calls.depth]

theorem giveBack_lifts (inside : height.Inside) (inner : callers.OperandsLift height operands)
    (value : Option ExpressionId) : callers.Alike height (giveBack operands value) :=
  Lifts.bind (resultValue_lifts inside inner value) fun address => setResult_lifts inside address

end Statements

end Callers

end ScriptEngine
