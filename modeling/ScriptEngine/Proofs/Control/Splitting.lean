import ScriptEngine.Proofs.Control.Blameless
import ScriptEngine.Proofs.Control.Performing
import ScriptEngine.Proofs.Hosting.Accounts
import ScriptEngine.Proofs.Hosting.Storing

/-!
# Chains of indices cut in two

A chain of indices does the same in one node as in two, of which one is the base of the
other.  Whatever is announced when the evaluation of an operand begins is announced in
both, so the keys are evaluated in one order.
-/

namespace ScriptEngine

open Evaluation

variable {setup : Setup} {announce : ExpressionId → State → State}

/-! ## Announcements -/

namespace Nested

/-- The evaluator that changes the state, by printing perhaps, before it evaluates an
expression. -/
def announcing (announce : ExpressionId → State → State) (nested : Nested) : Nested :=
  { nested with evaluate := fun id state => nested.evaluate id (announce id state) }

/-- The evaluator with fuel that announces the operands of all nodes. -/
def announced (setup : Setup) (announce : ExpressionId → State → State) : Nat → Nested
  | 0 => exhausted
  | fuel + 1 => layer setup (fun () => (announced setup announce fuel).announcing announce) fuel

/-- Nothing need be announced. -/
theorem announced_nothing (setup : Setup) :
    announced setup (fun _ state => state) = withFuel setup := by
  funext fuel
  induction fuel with
  | zero => rfl
  | succ fuel induction =>
      rw [announced, induction]
      rfl

theorem announcing_below {first second : Nested} (below : first.Below setup .outOfFuel second) :
    (first.announcing announce).Below setup .outOfFuel (second.announcing announce) :=
  ⟨⟨fun id state => below.operands.evaluate id (announce id state), below.operands.share,
    below.operands.target⟩, below.execute, below.iterations⟩

theorem announced_below {fuel more : Nat} (fewer : fuel ≤ more) :
    (announced setup announce fuel).Below setup .outOfFuel (announced setup announce more) := by
  induction fuel generalizing more with
  | zero => exact exhausted_below _
  | succ fuel induction =>
      cases more with
      | zero => simp at fewer
      | succ more =>
          have less : fuel ≤ more := Nat.le_of_succ_le_succ fewer
          exact (announcing_below (induction less)).layer (Or.inr ⟨rfl, less⟩)

end Nested

/-! ## Nodes that can stand for each other -/

/-- Whatever evaluators there are, by the fuel that they have, evaluate two expressions
alike, walk to the same stored object, find the same place to assign to, and assign
alike. -/
structure Nested.Interchangeable (setup : Setup) (runs : Nat → Nested)
    (one other : ExpressionId) : Prop where
  evaluate : Concur (fun fuel => (runs fuel).evaluate one) fun fuel => (runs fuel).evaluate other
  share : Concur (fun fuel => (runs fuel).share one) fun fuel => (runs fuel).share other
  target : Concur (fun fuel => (runs fuel).target one) fun fuel => (runs fuel).target other
  assign : ∀ {value id id' : ExpressionId} {span span' : Span},
    setup.program.expression? id = some ⟨.assign one value, span⟩ →
    setup.program.expression? id' = some ⟨.assign other value, span'⟩ →
      Concur (fun fuel => (runs fuel).evaluate id) fun fuel => (runs fuel).evaluate id'

namespace Evaluation

variable {operands : Operands}

theorem indexChain_append (container : Address) (earlier later : List ExpressionId) :
    indexChain setup operands container (earlier ++ later) =
      indexChain setup operands container earlier >>= fun middle =>
        indexChain setup operands middle later := by
  induction earlier generalizing container with
  | nil => rfl
  | cons index others induction =>
      rw [List.cons_append, indexChain, indexChain, LawfulMonad.bind_assoc]
      congr 1
      funext key
      rw [LawfulMonad.bind_assoc]
      congr 1
      funext element
      exact induction element

end Evaluation

namespace Nested

/-- The operands of a node, with some fuel. -/
def given (setup : Setup) (announce : ExpressionId → State → State) (fuel : Nat) : Operands :=
  ((announced setup announce fuel).announcing announce).toOperands

theorem given_below {fuel more : Nat} (fewer : fuel ≤ more) :
    (given setup announce fuel).Related (.cutShort setup .outOfFuel)
      (given setup announce more) :=
  (announcing_below (announced_below fewer)).operands

theorem given_fallsShort {fuel more : Nat} (fewer : fuel ≤ more) (id : ExpressionId) :
    ((given setup announce fuel).evaluate id).FallsShort
      ((given setup announce more).evaluate id) :=
  .of_below ((given_below fewer).evaluate id)

section

variable {id : ExpressionId} {node : Expression} {span : Span}
  (found : setup.program.expression? id = some ⟨node, span⟩) (fuel : Nat)
include found

theorem announced_evaluate :
    (announced setup announce (fuel + 1)).evaluate id =
      expression setup (given setup announce fuel)
        (callUser setup
          (runCall setup ((announced setup announce fuel).announcing announce))) id node span := by
  show withExpression setup id _ = _
  rw [withExpression, found]
  rfl

theorem announced_share :
    (announced setup announce (fuel + 1)).share id =
      sharedExpression setup (given setup announce fuel) id node span := by
  show withExpression setup id _ = _
  rw [withExpression, found]
  rfl

theorem announced_target :
    (announced setup announce (fuel + 1)).target id =
      targetExpression setup (given setup announce fuel) node span := by
  show withExpression setup id _ = _
  rw [withExpression, found]
  rfl

end

section

variable {inner base : ExpressionId} {earlier : List ExpressionId} {span : Span}
  (found : setup.program.expression? inner = some ⟨.index base earlier, span⟩)
  (later : List ExpressionId) (fuel : Nat)
include found

/-- A walk to stored data in one go, and in two. -/
theorem shareIndexed_forth :
    (shareIndexed setup (given setup announce fuel) base (earlier ++ later)).FallsShort
      (shareIndexed setup (given setup announce (fuel + 1)) inner later) := by
  unfold shareIndexed
  simp only [indexChain_append]
  rw [← LawfulMonad.bind_assoc]
  refine FallsShort.bind ?_ fun middle =>
    .of_below ((given_below (Nat.le_succ fuel)).indexChain later middle)
  show FallsShort _ ((announced setup announce (fuel + 1)).share inner)
  rw [announced_share found]
  exact (FallsShort.refl _).locatedRight span

theorem shareIndexed_back :
    (shareIndexed setup (given setup announce fuel) inner later).FallsShort
      (shareIndexed setup (given setup announce fuel) base (earlier ++ later)) := by
  unfold shareIndexed
  simp only [indexChain_append]
  rw [← LawfulMonad.bind_assoc]
  refine FallsShort.bind ?_ fun middle => .refl _
  show FallsShort ((announced setup announce fuel).share inner) _
  cases fuel with
  | zero => exact .of_stop
  | succ fuel =>
      rw [announced_share found]
      refine FallsShort.locatedLeft ?_ span
      exact .of_below ((given_below (Nat.le_succ fuel)).shareIndexed base earlier)

/-- A walk to a place in one go, and in two. -/
theorem indexedPlace_forth :
    (indexedPlace setup (given setup announce fuel) base (earlier ++ later)).FallsShort
      (indexedPlace setup (given setup announce (fuel + 1)) inner later) := by
  unfold indexedPlace
  simp only [placeChain_append]
  rw [← LawfulMonad.bind_assoc]
  refine FallsShort.bind ?_ fun middle =>
    .of_below ((given_below (Nat.le_succ fuel)).placeChain later middle)
  show FallsShort _ ((announced setup announce (fuel + 1)).target inner)
  rw [announced_target found]
  exact .refl _

theorem indexedPlace_back :
    (indexedPlace setup (given setup announce fuel) inner later).FallsShort
      (indexedPlace setup (given setup announce fuel) base (earlier ++ later)) := by
  unfold indexedPlace
  simp only [placeChain_append]
  rw [← LawfulMonad.bind_assoc]
  refine FallsShort.bind ?_ fun middle => .refl _
  show FallsShort ((announced setup announce fuel).target inner) _
  cases fuel with
  | zero => exact .of_stop
  | succ fuel =>
      rw [announced_target found]
      exact .of_below (((given_below (Nat.le_succ fuel)).target base).bind fun place =>
        (given_below (Nat.le_succ fuel)).placeChain earlier place)

end

end Nested

/-- Assignments to targets that lead to the same places. -/
theorem Evaluation.assign_fallsShort {first second : Operands} {one other : ExpressionId}
    (target : (first.target one).FallsShort (second.target other))
    (evaluate : ∀ id, (first.evaluate id).FallsShort (second.evaluate id)) (value : ExpressionId) :
    (assign first one value).FallsShort (assign second other value) :=
  target.bind fun _ => ((evaluate value).bind fun _ => .refl _).ensuring _

namespace Nested

variable {whole inner outer base : ExpressionId} {earlier later : List ExpressionId}
  {span span' span'' : Span}

theorem announced_interchangeable
    (undivided : setup.program.expression? whole = some ⟨.index base (earlier ++ later), span⟩)
    (first : setup.program.expression? inner = some ⟨.index base earlier, span'⟩)
    (second : setup.program.expression? outer = some ⟨.index inner later, span''⟩) :
    Interchangeable setup (announced setup announce) whole outer := by
  have targets : ∀ fuel, ((announced setup announce (fuel + 1)).target whole).FallsShort
        ((announced setup announce (fuel + 1 + 1)).target outer) ∧
      ((announced setup announce (fuel + 1)).target outer).FallsShort
        ((announced setup announce (fuel + 1)).target whole) := by
    intro fuel
    simp only [announced_target undivided, announced_target second]
    exact ⟨indexedPlace_forth first later fuel, indexedPlace_back first later fuel⟩
  constructor
  · apply Concur.of_deeper (fun fewer => (announced_below fewer).operands.evaluate outer) rfl rfl
    · intro fuel
      rw [announced_evaluate undivided, announced_evaluate second]
      exact (shareIndexed_forth first later fuel).bind fun _ => .refl _
    · intro fuel
      rw [announced_evaluate undivided, announced_evaluate second]
      exact (shareIndexed_back first later fuel).bind fun _ => .refl _
  · apply Concur.of_deeper (fun fewer => (announced_below fewer).operands.share outer) rfl rfl
    · intro fuel
      rw [announced_share undivided, announced_share second]
      exact (shareIndexed_forth first later fuel).located span span''
    · intro fuel
      rw [announced_share undivided, announced_share second]
      exact (shareIndexed_back first later fuel).located span'' span
  · apply Concur.of_deeper (fun fewer => (announced_below fewer).operands.target outer) rfl rfl
    · exact fun fuel => (targets fuel).1
    · exact fun fuel => (targets fuel).2
  · intro value id id' span span' found found'
    apply Concur.of_deeper (fun fewer => (announced_below fewer).operands.evaluate id') rfl rfl
    · intro fuel
      rw [announced_evaluate found, announced_evaluate found']
      refine (assign_fallsShort ?_ (given_fallsShort (Nat.le_succ fuel)) value).located span span'
      cases fuel with
      | zero => exact .of_stop
      | succ fuel => exact (targets fuel).1
    · intro fuel
      rw [announced_evaluate found, announced_evaluate found']
      refine (assign_fallsShort ?_ (given_fallsShort le_rfl) value).located span' span
      cases fuel with
      | zero => exact .of_stop
      | succ fuel => exact (targets fuel).2

/-- A chain of indices, cut anywhere into a node and its base, does in every state what the
whole chain does: it gives the same value, leads to the same stored object and to the same
place to assign to, creates the same entries on the way there and fails for the same
causes.  It evaluates the keys in the same order, as whatever is announced when the
evaluation of an operand begins makes no difference. -/
theorem index_splits
    (undivided : setup.program.expression? whole = some ⟨.index base (earlier ++ later), span⟩)
    (first : setup.program.expression? inner = some ⟨.index base earlier, span'⟩)
    (second : setup.program.expression? outer = some ⟨.index inner later, span''⟩) :
    Interchangeable setup (withFuel setup) whole outer ∧
      ∀ announce : ExpressionId → State → State,
        Interchangeable setup (announced setup announce) whole outer := by
  refine ⟨?_, fun announce => announced_interchangeable undivided first second⟩
  rw [← announced_nothing]
  exact announced_interchangeable undivided first second

/-- A variable that a call makes a dict of dicts, and two assignments to the same element of
an element of it. -/
def branching : Program where
  expressions :=
    #[⟨.literal (.int 0), .empty⟩, ⟨.literal (.int 1), .empty⟩, ⟨.reference ⟨0⟩, .empty⟩,
      ⟨.reference ⟨1⟩, .empty⟩, ⟨.assign ⟨2⟩ ⟨3⟩, .empty⟩, ⟨.index ⟨2⟩ [⟨0⟩, ⟨1⟩], .empty⟩,
      ⟨.index ⟨2⟩ [⟨0⟩], .empty⟩, ⟨.index ⟨6⟩ [⟨1⟩], .empty⟩, ⟨.assign ⟨5⟩ ⟨1⟩, .empty⟩,
      ⟨.assign ⟨7⟩ ⟨1⟩, .empty⟩]
  statements := #[⟨.declare ⟨0⟩ (some ⟨0⟩), .empty⟩, ⟨.expression ⟨4⟩, .empty⟩]
  functions :=
    #[⟨.empty, [⟨⟨1⟩, .dict .int (.dict .int .int)⟩], .none, ⟨[⟨1⟩], .empty⟩, .empty⟩]

/-- Both assignments create both entries. -/
theorem index_splits_branching :
    ∃ first second middle session value last whole after,
      (Session.start branching .standard .silent none).step 9 (.execute ⟨0⟩) =
        .ok (first, middle) ∧
      middle.step 9 (.call ⟨0⟩ [.dict .int (.dict .int .int) []] none) = .ok (second, session) ∧
      (withFuel ⟨branching, .standard⟩ 9).evaluate ⟨8⟩ session.state = .value value last ∧
      (withFuel ⟨branching, .standard⟩ 9).evaluate ⟨9⟩ session.state = .value value last ∧
      (withFuel ⟨branching, .standard⟩ 9).evaluate ⟨2⟩ last = .value whole after ∧
      after.heap.render true whole = "{ 0: { 1: 1 } }" := by
  have ran : ((Session.start branching .standard .silent none).step 9
      (.execute ⟨0⟩)).toOption.any (fun declared => (declared.2.step 9
        (.call ⟨0⟩ [.dict .int (.dict .int .int) []] none)).toOption.any fun called =>
          let nested := withFuel ⟨branching, .standard⟩ 9
          (nested.evaluate ⟨8⟩ called.2.state).value?.any fun assigned =>
            (nested.evaluate ⟨9⟩ called.2.state).value?.isSome &&
              (nested.evaluate ⟨2⟩ assigned.2).value?.any fun read =>
                read.2.heap.render true read.1 = "{ 0: { 1: 1 } }") = true := by decide +kernel
  obtain ⟨first, middle, declared, ran⟩ := Session.exists_step_of_any ran
  obtain ⟨second, session, called, ran⟩ := Session.exists_step_of_any ran
  obtain ⟨value, last, evaluated, ran⟩ := Outcome.exists_of_any ran
  obtain ⟨ended, ran⟩ := (Bool.and_eq_true _ _).mp ran
  obtain ⟨whole, after, read, rendered⟩ := Outcome.exists_of_any ran
  have alike : Interchangeable ⟨branching, .standard⟩ (withFuel ⟨branching, .standard⟩) ⟨5⟩ ⟨7⟩ :=
    (@index_splits ⟨branching, .standard⟩ _ _ _ _ [⟨0⟩] [⟨1⟩] _ _ _ rfl rfl rfl).1
  have assigned := @Interchangeable.assign _ _ _ _ alike ⟨1⟩ ⟨8⟩ ⟨9⟩ _ _ rfl rfl
  have same := @Evaluation.Concur.same _ _ _ assigned session.state 9 9 (by simp [evaluated])
    fun stopped => by simp [stopped, Outcome.value?] at ended
  rw [evaluated] at same
  generalize outcome : (withFuel ⟨branching, .standard⟩ 9).evaluate ⟨9⟩ session.state = other at same
  cases same with
  | value _ _ =>
      exact ⟨first, second, middle, session, value, last, whole, after, declared, called, evaluated,
        outcome, read, of_decide_eq_true rendered⟩

end Nested

end ScriptEngine
