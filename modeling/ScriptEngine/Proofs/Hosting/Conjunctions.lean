import ScriptEngine.Proofs.Abreast.Indexing
import ScriptEngine.Proofs.Control.Performing
import ScriptEngine.Proofs.Hosting.Operands

/-!
# Chains of comparisons

A chain of comparisons is the conjunction of its adjacent pairs.  Its operands are
evaluated once each from left to right, as far as the first pair that does not hold or
the first failure, and no further.
-/

namespace ScriptEngine

open Evaluation

namespace Evaluation

variable {operands : Operands} {first operand : ExpressionId} {moment middle last : State}
  {operator : ComparisonOperator} {rest before after : List (ComparisonOperator × ExpressionId)}
  {left right : Address} {span : Span}

/-! ## How far a chain gets -/

/-- Some operands after the first have been evaluated, each once the pair before it was
found to hold; the last of them is in hand. -/
inductive HoldsUpTo (operands : Operands) (first : ExpressionId) (moment : State) :
    List (ComparisonOperator × ExpressionId) → Address → State → Prop where
  | start {value : Address} {state : State} :
      operands.evaluate first moment = .value value state →
        HoldsUpTo operands first moment [] value state
  | next {before : List (ComparisonOperator × ExpressionId)} {left right : Address}
      {middle last : State} {operator : ComparisonOperator} {operand : ExpressionId} :
      HoldsUpTo operands first moment before left middle →
      operands.evaluate operand middle = .value right last →
      last.heap.comparison operator left right = .ok true →
        HoldsUpTo operands first moment (before ++ [(operator, operand)]) right
          (last.releaseAll [left])

/-- A pair does not hold, and all before it do. -/
inductive Differs (operands : Operands) (first : ExpressionId)
    (rest : List (ComparisonOperator × ExpressionId)) (moment : State) (left right : Address)
    (last : State) : Prop where
  | intro {before after : List (ComparisonOperator × ExpressionId)} {middle : State}
      {operator : ComparisonOperator} {operand : ExpressionId} :
      rest = before ++ (operator, operand) :: after →
      HoldsUpTo operands first moment before left middle →
      operands.evaluate operand middle = .value right last →
      last.heap.comparison operator left right = .ok false →
        Differs operands first rest moment left right last

/-- The first operand fails, or after pairs that hold the next operand does, or the pair
cannot be compared; the handles at hand are given back. -/
inductive Breaks (operands : Operands) (first : ExpressionId)
    (rest : List (ComparisonOperator × ExpressionId)) (moment : State) :
    Failure → State → Prop where
  | first {failure : Failure} {last : State} :
      operands.evaluate first moment = .failure failure last →
        Breaks operands first rest moment failure last
  | operand {before after : List (ComparisonOperator × ExpressionId)} {left : Address}
      {middle last : State} {operator : ComparisonOperator} {operand : ExpressionId}
      {failure : Failure} :
      rest = before ++ (operator, operand) :: after →
      HoldsUpTo operands first moment before left middle →
      operands.evaluate operand middle = .failure failure last →
        Breaks operands first rest moment failure (last.releaseAll [left])
  | pair {before after : List (ComparisonOperator × ExpressionId)} {left right : Address}
      {middle last : State} {operator : ComparisonOperator} {operand : ExpressionId}
      {cause : Cause} :
      rest = before ++ (operator, operand) :: after →
      HoldsUpTo operands first moment before left middle →
      operands.evaluate operand middle = .value right last →
      last.heap.comparison operator left right = .error cause →
        Breaks operands first rest moment (.of cause) (last.releaseAll [left, right])

/-- The first operand, or the next one after pairs that hold, has no answer. -/
inductive Stalls (operands : Operands) (first : ExpressionId)
    (rest : List (ComparisonOperator × ExpressionId)) (moment : State) (reason : Stop) :
    Prop where
  | first : operands.evaluate first moment = .stopped reason →
      Stalls operands first rest moment reason
  | operand {before after : List (ComparisonOperator × ExpressionId)} {left : Address}
      {middle : State} {operator : ComparisonOperator} {operand : ExpressionId} :
      rest = before ++ (operator, operand) :: after →
      HoldsUpTo operands first moment before left middle →
      operands.evaluate operand middle = .stopped reason →
        Stalls operands first rest moment reason

/-- The outcome of a conjunction of pairs: true if all hold, false as of the state in which
the first that does not was compared, or else the failure that came first. -/
inductive Conjoins (operands : Operands) (first : ExpressionId)
    (rest : List (ComparisonOperator × ExpressionId)) (span : Span) (moment : State) :
    Outcome Address → Prop where
  | holds {left : Address} {last : State} : HoldsUpTo operands first moment rest left last →
      Conjoins operands first rest span moment (holding [left] (newScalar (.bool true)) last)
  | differs {left right : Address} {last : State} :
      Differs operands first rest moment left right last →
        Conjoins operands first rest span moment
          (holding [left, right] (newScalar (.bool false)) last)
  | breaks {failure : Failure} {last : State} : Breaks operands first rest moment failure last →
      Conjoins operands first rest span moment (.failure (failure.locate span) last)
  | stalls {reason : Stop} : Stalls operands first rest moment reason →
      Conjoins operands first rest span moment (.stopped reason)

/-- A chain from its first operand on. -/
def comparisonFrom (operands : Operands) (first : ExpressionId)
    (rest : List (ComparisonOperator × ExpressionId)) : Evaluation Address := do
  let left ← operands.evaluate first
  comparisonChain operands left rest

/-! ## One pair -/

theorem comparisonChain_of_value (evaluated : operands.evaluate operand middle = .value right last)
    (after : List (ComparisonOperator × ExpressionId)) :
    comparisonChain operands left ((operator, operand) :: after) middle =
      match last.heap.comparison operator left right with
      | .ok true => comparisonChain operands right after (last.releaseAll [left])
      | .ok false => holding [left, right] (newScalar (.bool false)) last
      | .error cause => .failure (.of cause) (last.releaseAll [left, right]) := by
  rw [comparisonChain, bind_run, guarding, evaluated]
  simp only [bind_run, read, guarding, ofExcept]
  cases last.heap.comparison operator left right with
  | error cause => rfl
  | ok holds => cases holds <;> rfl

theorem comparisonChain_of_failure {failure : Failure}
    (failed : operands.evaluate operand middle = .failure failure last)
    (after : List (ComparisonOperator × ExpressionId)) :
    comparisonChain operands left ((operator, operand) :: after) middle =
      .failure failure (last.releaseAll [left]) := by
  rw [comparisonChain, bind_run, guarding, failed]

theorem comparisonChain_of_stopped {reason : Stop}
    (stopped : operands.evaluate operand middle = .stopped reason)
    (after : List (ComparisonOperator × ExpressionId)) :
    comparisonChain operands left ((operator, operand) :: after) middle = .stopped reason := by
  rw [comparisonChain, bind_run, guarding, stopped]

/-! ## Whole chains -/

/-- A chain goes on from the last operand in hand. -/
theorem HoldsUpTo.continues (holds : HoldsUpTo operands first moment before left middle)
    (after : List (ComparisonOperator × ExpressionId)) :
    comparisonFrom operands first (before ++ after) moment =
      comparisonChain operands left after middle := by
  induction holds generalizing after with
  | start evaluated => rw [List.nil_append, comparisonFrom, bind_run, evaluated]
  | next holds evaluated compared induction =>
      rw [List.append_assoc, List.singleton_append, induction, comparisonChain_of_value evaluated,
        compared]

/-- Whatever a conjunction gives, the chain gives. -/
theorem Conjoins.sound {outcome : Outcome Address}
    (conjoins : Conjoins operands first rest span moment outcome) :
    located span (comparisonFrom operands first rest) moment = outcome := by
  cases conjoins with
  | holds holds =>
      have ended := holds.continues []
      rw [List.append_nil] at ended
      rw [located, ended]
      rfl
  | differs differs =>
      obtain ⟨rfl, holds, evaluated, compared⟩ := differs
      rw [located, holds.continues, comparisonChain_of_value evaluated, compared]
      rfl
  | breaks breaks =>
      cases breaks with
      | first failed => rw [located, comparisonFrom, bind_run, failed]
      | operand split holds failed =>
          rw [split, located, holds.continues, comparisonChain_of_failure failed]
      | pair split holds evaluated compared =>
          rw [split, located, holds.continues, comparisonChain_of_value evaluated, compared]
  | stalls stalls =>
      cases stalls with
      | first stopped => rw [located, comparisonFrom, bind_run, stopped]
      | operand split holds stopped =>
          rw [split, located, holds.continues, comparisonChain_of_stopped stopped]

/-- There is always one of the four ends, whatever pair the chain has got to. -/
theorem HoldsUpTo.conjoins (holds : HoldsUpTo operands first moment before left middle)
    (after : List (ComparisonOperator × ExpressionId)) :
    ∃ outcome, Conjoins operands first (before ++ after) span moment outcome := by
  induction after generalizing before left middle with
  | nil => exact ⟨_, .holds (by rwa [List.append_nil])⟩
  | cons link others induction =>
      obtain ⟨operator, operand⟩ := link
      cases evaluated : operands.evaluate operand middle with
      | failure failure last => exact ⟨_, .breaks (.operand rfl holds evaluated)⟩
      | stopped reason => exact ⟨_, .stalls (.operand rfl holds evaluated)⟩
      | value right last =>
          cases compared : last.heap.comparison operator left right with
          | error cause => exact ⟨_, .breaks (.pair rfl holds evaluated compared)⟩
          | ok answer =>
              cases answer with
              | false => exact ⟨_, .differs ⟨rfl, holds, evaluated, compared⟩⟩
              | true =>
                  have rest := induction (.next holds evaluated compared)
                  rwa [List.append_assoc, List.singleton_append] at rest

theorem exists_conjoins (operands : Operands) (first : ExpressionId)
    (rest : List (ComparisonOperator × ExpressionId)) (span : Span) (moment : State) :
    ∃ outcome, Conjoins operands first rest span moment outcome := by
  cases evaluated : operands.evaluate first moment with
  | value value state => exact (HoldsUpTo.start evaluated).conjoins rest
  | failure failure last => exact ⟨_, .breaks (.first evaluated)⟩
  | stopped reason => exact ⟨_, .stalls (.first evaluated)⟩

/-- A chain is the conjunction of its pairs. -/
theorem located_comparisonFrom_iff {outcome : Outcome Address} :
    located span (comparisonFrom operands first rest) moment = outcome ↔
      Conjoins operands first rest span moment outcome := by
  constructor
  · rintro rfl
    obtain ⟨outcome, conjoins⟩ := exists_conjoins operands first rest span moment
    rw [conjoins.sound]
    exact conjoins
  · exact Conjoins.sound

end Evaluation

/-! ## Chains at any moment -/

theorem Nested.evaluate_comparison {setup : Setup} {id first : ExpressionId}
    {rest : List (ComparisonOperator × ExpressionId)} {span : Span}
    (found : setup.program.expression? id = some ⟨.comparison first rest, span⟩) (fuel : Nat) :
    (withFuel setup (fuel + 1)).evaluate id =
      located span (comparisonFrom (withFuel setup fuel).toOperands first rest) := by
  rw [evaluate_eq found]
  rfl

section

variable {nested : Nested} {depth : Nat} {hand : Hand} {moment middle last : State} {span : Span}
  {first operand : ExpressionId} {rest before : List (ComparisonOperator × ExpressionId)}
  {left right : Address} (careful : nested.Careful)
  (held : Holding Ledger.Orderly depth hand moment)
include careful held

theorem Evaluation.HoldsUpTo.holding
    (holds : HoldsUpTo nested.toOperands first moment before left last) :
    Holding Ledger.Orderly depth (hand.own left) last := by
  induction holds with
  | start evaluated => exact careful.value held evaluated
  | next holds evaluated compared kept =>
      have both := (careful.waiting kept evaluated).1
      apply (Holding.stable (@Ledger.Orderly.step ⟨True, True⟩) depth).release
      simp only [Hand.ownAll_cons, Hand.ownAll_nil] at both ⊢
      exact both

/-- The left operand of a pair reads as it did before the right one was evaluated. -/
theorem Evaluation.HoldsUpTo.tree_eq
    (holds : HoldsUpTo nested.toOperands first moment before left middle)
    (evaluated : nested.evaluate operand middle = .value right last) :
    last.heap.tree left = middle.heap.tree left := by
  have kept := holds.holding careful held
  obtain ⟨both, alike⟩ := careful.waiting kept evaluated
  exact alike.tree kept.1.sound.grounded both.1.sound.grounded

theorem Evaluation.HoldsUpTo.answer
    (holds : HoldsUpTo nested.toOperands first moment rest left last) :
    ∃ value final, Evaluation.holding [left] (newScalar (.bool true)) last = .value value final ∧
      final.heap.scalar? value = some (.bool true) := by
  have kept : Holding Ledger.Orderly depth (hand.ownAll [left]) last := by
    simp only [Hand.ownAll_cons, Hand.ownAll_nil]
    exact holds.holding careful held
  obtain ⟨value, final, ended, made, _⟩ := Holding.newScalar kept (.bool true)
  exact ⟨value, final, ended, made⟩

theorem Evaluation.Differs.answer
    (differs : Differs nested.toOperands first rest moment left right last) :
    ∃ value final,
      Evaluation.holding [left, right] (newScalar (.bool false)) last = .value value final ∧
        final.heap.scalar? value = some (.bool false) := by
  cases differs with
  | intro split holds evaluated compared =>
      have both := (careful.waiting (holds.holding careful held) evaluated).1
      obtain ⟨value, final, ended, made, _⟩ := Holding.newScalar both (.bool false)
      exact ⟨value, final, ended, made⟩

/-- A value that a chain gives is the answer to whether all of its pairs hold. -/
theorem Evaluation.Conjoins.value_cases {outcome : Outcome Address} {value : Address}
    {final : State} (conjoins : Conjoins nested.toOperands first rest span moment outcome)
    (ended : outcome = .value value final) :
    (final.heap.scalar? value = some (.bool true) ∧
        ∃ left last, HoldsUpTo nested.toOperands first moment rest left last) ∨
      (final.heap.scalar? value = some (.bool false) ∧
        ∃ left right last, Differs nested.toOperands first rest moment left right last) := by
  cases conjoins with
  | holds holds =>
      obtain ⟨value', final', given, made⟩ := holds.answer careful held
      cases ended.symm.trans given
      exact Or.inl ⟨made, _, _, holds⟩
  | differs differs =>
      obtain ⟨value', final', given, made⟩ := differs.answer careful held
      cases ended.symm.trans given
      exact Or.inr ⟨made, _, _, _, differs⟩
  | breaks _ => cases ended
  | stalls _ => cases ended

theorem Evaluation.Conjoins.yields_true_iff {outcome : Outcome Address}
    (conjoins : Conjoins nested.toOperands first rest span moment outcome) :
    (∃ value final, outcome = .value value final ∧
        final.heap.scalar? value = some (.bool true)) ↔
      ∃ left last, HoldsUpTo nested.toOperands first moment rest left last := by
  constructor
  · rintro ⟨value, final, ended, read⟩
    rcases conjoins.value_cases careful held ended with ⟨_, holds⟩ | ⟨differs, _⟩
    · exact holds
    · rw [read] at differs
      cases differs
  · rintro ⟨left, last, holds⟩
    obtain ⟨value, final, given, made⟩ := holds.answer careful held
    exact ⟨value, final, (conjoins.sound.symm.trans (Conjoins.holds holds).sound).trans given, made⟩

theorem Evaluation.Conjoins.yields_false_iff {outcome : Outcome Address}
    (conjoins : Conjoins nested.toOperands first rest span moment outcome) :
    (∃ value final, outcome = .value value final ∧
        final.heap.scalar? value = some (.bool false)) ↔
      ∃ left right last, Differs nested.toOperands first rest moment left right last := by
  constructor
  · rintro ⟨value, final, ended, read⟩
    rcases conjoins.value_cases careful held ended with ⟨holds, _⟩ | ⟨_, differs⟩
    · rw [read] at holds
      cases holds
    · exact differs
  · rintro ⟨left, right, last, differs⟩
    obtain ⟨value, final, given, made⟩ := differs.answer careful held
    exact ⟨value, final, (conjoins.sound.symm.trans (Conjoins.differs differs).sound).trans given,
      made⟩

theorem Evaluation.Conjoins.fails_iff {outcome : Outcome Address}
    (conjoins : Conjoins nested.toOperands first rest span moment outcome) :
    (∃ failure final, outcome = .failure failure final) ↔
      ∃ failure final, Breaks nested.toOperands first rest moment failure final := by
  constructor
  · rintro ⟨failure, final, ended⟩
    cases conjoins with
    | holds holds =>
        obtain ⟨value, last, given, _⟩ := holds.answer careful held
        cases ended.symm.trans given
    | differs differs =>
        obtain ⟨value, last, given, _⟩ := differs.answer careful held
        cases ended.symm.trans given
    | breaks breaks => exact ⟨_, _, breaks⟩
    | stalls _ => cases ended
  · rintro ⟨failure, final, breaks⟩
    exact ⟨_, _, conjoins.sound.symm.trans (Conjoins.breaks breaks).sound⟩

end

namespace Session

variable {session : Session} {program : Program} {builtins : BuiltinTable} {sink : Sink}
  {limit : Option Nat} {requests : List (Nat × Request)}

/-- In every state, a chain of comparisons does what the conjunction of its pairs does: it
evaluates its operands once each from left to right, and stops at the first pair that does
not hold or at the first failure.  So at any moment of any request it yields true if and only
if all operands evaluate and all pairs hold, false if and only if some pair does not and
everything before it went well, and it fails if and only if something failed before that.
Between the two comparisons that an operand takes part in, it reads the same. -/
theorem Runs.comparison_conjunction (lawful : builtins.Lawful)
    (runs : Runs (start program builtins sink limit) requests session) {fuel : Nat}
    {request : Request} {moment : State} (visits : session.Visits fuel request moment)
    {id first : ExpressionId} {rest : List (ComparisonOperator × ExpressionId)} {span : Span}
    (found : program.expression? id = some ⟨.comparison first rest, span⟩) (more : Nat) :
    let operands := (Nested.withFuel ⟨program, builtins⟩ more).toOperands
    let chain := (Nested.withFuel ⟨program, builtins⟩ (more + 1)).evaluate id
    (∀ state outcome, chain state = outcome ↔ Conjoins operands first rest span state outcome) ∧
      ((∃ value final, chain moment = .value value final ∧
          final.heap.scalar? value = some (.bool true)) ↔
        ∃ left last, HoldsUpTo operands first moment rest left last) ∧
      ((∃ value final, chain moment = .value value final ∧
          final.heap.scalar? value = some (.bool false)) ↔
        ∃ left right last, Differs operands first rest moment left right last) ∧
      ((∃ failure final, chain moment = .failure failure final) ↔
        ∃ failure final, Breaks operands first rest moment failure final) ∧
      ∀ {before left middle operand right last},
        HoldsUpTo operands first moment before left middle →
        operands.evaluate operand middle = .value right last →
          last.heap.tree left = middle.heap.tree left := by
  intro operands chain
  have upholds := runs.upholds Ledger.Orderly.hosted (by simp)
    (start_upholds lawful Ledger.Orderly.blank)
  obtain ⟨hand, ordered⟩ := upholds.visited Ledger.Orderly.hosted (by simp) visits
  have held : Holding Ledger.Orderly moment.calls.depth hand moment := ⟨ordered, rfl⟩
  have careful := @Nested.withFuel_careful ⟨program, builtins⟩ lawful more
  have same : ∀ state outcome, chain state = outcome ↔
      Conjoins operands first rest span state outcome := by
    intro state outcome
    rw [← located_comparisonFrom_iff]
    exact Eq.congr (congrFun (@Nested.evaluate_comparison ⟨program, builtins⟩ _ _ _ _ found more)
      state) rfl
  have conjoins := (same moment (chain moment)).mp rfl
  exact ⟨same, conjoins.yields_true_iff careful held, conjoins.yields_false_iff careful held,
    conjoins.fails_iff careful held, fun holds evaluated => holds.tree_eq careful held evaluated⟩

/-- One is less than two, which is not less than itself, and what comes then is a variable
that is not defined. -/
def ascending : Program where
  expressions :=
    #[⟨.literal (.int 1), .empty⟩, ⟨.literal (.int 2), .empty⟩, ⟨.reference ⟨0⟩, .empty⟩,
      ⟨.comparison ⟨0⟩ [(.less, ⟨1⟩), (.less, ⟨1⟩), (.less, ⟨2⟩)], .empty⟩]

theorem Runs.comparison_conjunction_ascending :
    let moment := (start ascending .standard .silent none).state
    let nested := Nested.withFuel ⟨ascending, .standard⟩
    ∃ value final left right last, (nested 9).evaluate ⟨3⟩ moment = .value value final ∧
      final.heap.scalar? value = some (.bool false) ∧
      Differs (nested 8).toOperands ⟨0⟩ [(.less, ⟨1⟩), (.less, ⟨1⟩), (.less, ⟨2⟩)] moment
        left right last := by
  intro moment nested
  have ran : ((nested 9).evaluate ⟨3⟩ moment).value?.any (fun given =>
      given.2.heap.scalar? given.1 = some (.bool false)) = true := by decide +kernel
  obtain ⟨value, final, ended, made⟩ := Outcome.exists_of_any ran
  have read := of_decide_eq_true made
  have runs := Runs.nil (start ascending .standard .silent none)
  have visits := (start ascending .standard .silent none).visits_start 8 ⟨0⟩
  obtain ⟨_, _, differs, _⟩ := @Runs.comparison_conjunction _ _ _ _ _ _ BuiltinTable.standard_lawful
    runs _ _ _ visits ⟨3⟩ ⟨0⟩ [(.less, ⟨1⟩), (.less, ⟨1⟩), (.less, ⟨2⟩)] .empty rfl 8
  obtain ⟨left, right, last, apart⟩ := differs.mp ⟨value, final, ended, read⟩
  exact ⟨value, final, left, right, last, ended, read, apart⟩

end Session

end ScriptEngine
