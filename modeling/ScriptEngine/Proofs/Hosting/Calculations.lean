import ScriptEngine.Proofs.Abreast.Indexing
import ScriptEngine.Proofs.Control.Blameless
import ScriptEngine.Proofs.Control.Performing
import ScriptEngine.Proofs.Hosting.Assignments
import ScriptEngine.Proofs.Hosting.Operands
import ScriptEngine.Proofs.Operation.Exactness

/-!
# Chains of arithmetic operators

A chain whose operands evaluate to words of one kind computes what exact arithmetic does
from left to right, or fails at the first operator that has no result.  Whatever its
operands are, a chain does what nested nodes with one operator each do.
-/

namespace ScriptEngine

open Evaluation

/-! ## Exact totals -/

/-- An operand of a chain with the operator before it, and an integer that the operand
evaluates to. -/
structure Term where
  operator : ArithmeticOperator
  operand : ExpressionId
  number : Int

namespace Term

variable {kind : Kind} {number : Int} {before after terms : List Term} {term : Term}

def link (term : Term) : ArithmeticOperator × ExpressionId :=
  (term.operator, term.operand)

/-- The exact total of the terms after a number, from left to right. -/
def total (number : Int) (terms : List Term) : Int :=
  terms.foldl (fun sum term => term.operator.exact sum term.number) number

/-- Every operator has a result in the range of the kind. -/
def AllFit (kind : Kind) : Int → List Term → Prop
  | _, [] => True
  | number, term :: terms =>
      term.operator.Fits kind number term.number ∧
        AllFit kind (term.operator.exact number term.number) terms

instance (kind : Kind) (number : Int) (terms : List Term) : Decidable (AllFit kind number terms) :=
  match terms with
  | [] => inferInstanceAs (Decidable True)
  | term :: terms =>
      have := instDecidableAllFit kind (term.operator.exact number term.number) terms
      inferInstanceAs (Decidable (_ ∧ _))

theorem total_append (number : Int) (before after : List Term) :
    total number (before ++ after) = total (total number before) after :=
  List.foldl_append

theorem allFit_append :
    AllFit kind number (before ++ after) ↔
      AllFit kind number before ∧ AllFit kind (total number before) after := by
  induction before generalizing number with
  | nil => simp [AllFit, total]
  | cons term others induction =>
      rw [List.cons_append, AllFit, AllFit, induction, and_assoc]
      rfl

/-- If not every operator has a result, there is a first that has none. -/
theorem exists_first_of_not_allFit (fails : ¬ AllFit kind number terms) :
    ∃ before term after, terms = before ++ term :: after ∧ AllFit kind number before ∧
      ¬ term.operator.Fits kind (total number before) term.number := by
  induction terms generalizing number with
  | nil => exact absurd trivial fails
  | cons term others induction =>
      by_cases fits : term.operator.Fits kind number term.number
      · obtain ⟨before, bad, after, rfl, good, last⟩ :=
          induction fun rest => fails ⟨fits, rest⟩
        exact ⟨term :: before, bad, after, rfl, ⟨fits, good⟩, last⟩
      · exact ⟨[], term, others, rfl, trivial, fits⟩

end Term

/-! ## Chains of words -/

/-- An object is a word of a kind that denotes an integer. -/
def Heap.Denotes (heap : Heap) (kind : Kind) (address : Address) (number : Int) : Prop :=
  ∃ scalar ∈ heap.scalar? address, scalar.Denotes kind number

instance (heap : Heap) (kind : Kind) (address : Address) (number : Int) :
    Decidable (heap.Denotes kind address number) := by
  unfold Heap.Denotes Scalar.Denotes
  infer_instance

namespace Evaluation

variable {setup : Setup} {nested : Nested} {operands : Operands} {kind : Kind} {depth : Nat}
  {hand : Hand} {state last moment : State} {left right : Address} {first operand : ExpressionId}
  {operator : ArithmeticOperator} {number divisor : Int} {terms before after : List Term}
  {term : Term}

/-- A chain from its first operand on. -/
def arithmeticFrom (operands : Operands) (first : ExpressionId)
    (rest : List (ArithmeticOperator × ExpressionId)) : Evaluation Address := do
  let left ← operands.evaluate first
  arithmeticChain operands left rest

/-- Wherever a chain gets to, the next operand evaluates to a word of a kind that denotes
a number given for it. -/
structure Supplies (operands : Operands) (kind : Kind) (first : ExpressionId) (number : Int)
    (terms : List Term) (moment : State) : Prop where
  start : ∃ value state, operands.evaluate first moment = .value value state ∧
    state.heap.Denotes kind value number
  next : ∀ {before term after}, terms = before ++ term :: after → ∀ {left state},
    arithmeticFrom operands first (before.map Term.link) moment = .value left state →
      ∃ right last, operands.evaluate term.operand state = .value right last ∧
        last.heap.Denotes kind right term.number

/-- Whether the operands from a point of a chain on are supplied. -/
def suppliedFrom (operands : Operands) (kind : Kind) : Outcome Address → List Term → Bool
  | _, [] => true
  | outcome, term :: terms =>
      outcome.value?.all fun reached =>
        ((operands.evaluate term.operand reached.2).value?.any fun given =>
            given.2.heap.Denotes kind given.1 term.number) &&
          suppliedFrom operands kind (arithmeticChain operands reached.1 [term.link] reached.2) terms

/-- An outcome is the exact total of the numbers, if every operator has a result, and
otherwise the failure of the first operator that has none, in the state in which its right
operand had been evaluated, less the two operands. -/
inductive Calculates (operands : Operands) (kind : Kind) (first : ExpressionId) (number : Int)
    (terms : List Term) (span : Span) (moment : State) : Outcome Address → Prop where
  | value {value : Address} {last : State} : Term.AllFit kind number terms →
      last.heap.Denotes kind value (Term.total number terms) →
        Calculates operands kind first number terms span moment (.value value last)
  | failure {before after : List Term} {term : Term} {left right : Address} {middle last : State} :
      terms = before ++ term :: after → Term.AllFit kind number before →
        ¬ term.operator.Fits kind (Term.total number before) term.number →
        arithmeticFrom operands first (before.map Term.link) moment = .value left middle →
        operands.evaluate term.operand middle = .value right last →
          Calculates operands kind first number terms span moment
            (.failure ((Failure.of (term.operator.cause term.number)).locate span)
              (last.releaseAll [left, right]))

theorem Calculates.succeeds_iff {span : Span} {outcome : Outcome Address}
    (calculates : Calculates operands kind first number terms span moment outcome) :
    (∃ value last, outcome = .value value last) ↔ Term.AllFit kind number terms := by
  cases calculates with
  | value fit _ => exact ⟨fun _ => fit, fun _ => ⟨_, _, rfl⟩⟩
  | failure split _ bad _ _ =>
      constructor
      · rintro ⟨value, last, ended⟩
        cases ended
      · intro fit
        rw [split] at fit
        exact absurd (Term.allFit_append.mp fit).2.1 bad

theorem arithmeticChain_append (left : Address)
    (earlier later : List (ArithmeticOperator × ExpressionId)) :
    arithmeticChain operands left (earlier ++ later) =
      arithmeticChain operands left earlier >>= fun middle =>
        arithmeticChain operands middle later := by
  induction earlier generalizing left with
  | nil => rfl
  | cons link others induction =>
      rw [List.cons_append, arithmeticChain, arithmeticChain, LawfulMonad.bind_assoc]
      congr 1
      funext right
      rw [LawfulMonad.bind_assoc]
      congr 1
      funext result
      exact induction result

theorem arithmeticFrom_nil (first : ExpressionId) :
    arithmeticFrom operands first [] = operands.evaluate first :=
  Evaluation.bind_pure _

theorem arithmeticFrom_append (first : ExpressionId)
    (earlier later : List (ArithmeticOperator × ExpressionId)) :
    arithmeticFrom operands first (earlier ++ later) =
      arithmeticFrom operands first earlier >>= fun middle =>
        arithmeticChain operands middle later := by
  unfold arithmeticFrom
  rw [LawfulMonad.bind_assoc]
  congr 1
  funext left
  exact arithmeticChain_append left earlier later

theorem suppliedFrom_sound {chain : Evaluation Address}
    (supplied : suppliedFrom operands kind (chain moment) (before ++ term :: after) = true)
    (reached : (chain >>= fun left => arithmeticChain operands left (before.map Term.link)) moment =
      .value left state) :
    ∃ right last, operands.evaluate term.operand state = .value right last ∧
      last.heap.Denotes kind right term.number := by
  induction before generalizing chain with
  | nil =>
      obtain ⟨first, middle, began, ended⟩ := exists_of_bind reached
      cases ended
      rw [began, List.nil_append, suppliedFrom, Outcome.value?, Option.all_some,
        Bool.and_eq_true] at supplied
      obtain ⟨right, last, evaluated, checked⟩ := Outcome.exists_of_any supplied.1
      exact ⟨right, last, evaluated, of_decide_eq_true checked⟩
  | cons link others induction =>
      have went := reached
      obtain ⟨first, middle, began, _⟩ := exists_of_bind reached
      rw [began, List.cons_append, suppliedFrom, Outcome.value?, Option.all_some,
        Bool.and_eq_true] at supplied
      apply @induction (chain >>= fun left => arithmeticChain operands left [link.link])
      · rw [bind_run, began]
        exact supplied.2
      · rw [LawfulMonad.bind_assoc]
        simp only [← arithmeticChain_append]
        exact went

/-- One operator with the operand after it. -/
theorem arithmeticChain_cons (evaluated : operands.evaluate operand state = .value right last)
    (rest : List (ArithmeticOperator × ExpressionId)) :
    arithmeticChain operands left ((operator, operand) :: rest) state =
      (applyArithmetic operator left right >>= fun result =>
        arithmeticChain operands result rest) last := by
  rw [arithmeticChain, bind_run, guarding, evaluated]

theorem applyArithmetic_run {one other : Scalar} (found : state.heap.scalar? left = some one)
    (found' : state.heap.scalar? right = some other) :
    applyArithmetic operator left right state =
      holding [left, right]
        (ofExcept (arithmetic operator (.scalar one) (.scalar other)) >>= newScalar) state := by
  rw [Heap.scalar?_eq_some_iff] at found found'
  simp only [applyArithmetic, holding, ensuring, bind_run, read, found, found']

/-- An operator applied to two words gives the exact word, or fails. -/
theorem applyArithmetic_exact
    (held : Holding Ledger.Orderly depth (hand.ownAll [left, right]) state)
    (one : state.heap.Denotes kind left number) (other : state.heap.Denotes kind right divisor) :
    (operator.Fits kind number divisor → ∃ result last,
      applyArithmetic operator left right state = .value result last ∧
        last.heap.Denotes kind result (operator.exact number divisor) ∧
        Holding Ledger.Orderly depth (hand.own result) last) ∧
    (¬ operator.Fits kind number divisor →
      applyArithmetic operator left right state =
        .failure (.of (operator.cause divisor)) (state.releaseAll [left, right])) := by
  obtain ⟨scalar, found, denotes⟩ := one
  obtain ⟨scalar', found', denotes'⟩ := other
  obtain ⟨computes, fails⟩ := @Scalar.Denotes.arithmetic _ operator _ _ _ _ denotes denotes'
  constructor
  · intro fits
    obtain ⟨value, computed, exact⟩ := computes fits
    obtain ⟨result, last, ended, made, kept⟩ := held.newScalar value
    refine ⟨result, last, ?_, ⟨value, made, exact⟩, kept⟩
    rw [applyArithmetic_run found found', computed]
    exact ended
  · intro beyond
    rw [applyArithmetic_run found found', fails beyond]
    rfl

/-- What a left operand denotes it still denotes when the right one has been evaluated. -/
theorem denotes_waiting (careful : nested.Careful)
    (held : Holding Ledger.Orderly depth (hand.own left) state)
    (denotes : state.heap.Denotes kind left number)
    (evaluated : nested.evaluate operand state = .value right last) :
    Holding Ledger.Orderly depth (hand.ownAll [left, right]) last ∧
      last.heap.Denotes kind left number := by
  obtain ⟨kept, alike⟩ := careful.waiting held evaluated
  obtain ⟨scalar, found, denotes⟩ := denotes
  rw [Option.mem_def, Heap.scalar?_eq_some_iff, ← alike.payload, ← Heap.scalar?_eq_some_iff] at found
  exact ⟨kept, scalar, found, denotes⟩

/-- As far as every operator has a result, a chain has the exact total. -/
theorem Supplies.reaches (careful : nested.Careful)
    (supplies : Supplies nested.toOperands kind first number terms moment)
    (held : Holding Ledger.Orderly depth hand moment) (split : terms = before ++ after)
    (fit : Term.AllFit kind number before) :
    ∃ left state, arithmeticFrom nested.toOperands first (before.map Term.link) moment =
        .value left state ∧
      state.heap.Denotes kind left (Term.total number before) ∧
      Holding Ledger.Orderly depth (hand.own left) state := by
  induction before using List.reverseRecOn generalizing after with
  | nil =>
      obtain ⟨value, state, evaluated, denotes⟩ := supplies.start
      refine ⟨value, state, ?_, denotes, careful.value held evaluated⟩
      rw [List.map_nil, arithmeticFrom_nil]
      exact evaluated
  | append_singleton before term induction =>
      rw [List.append_assoc, List.singleton_append] at split
      obtain ⟨fit, fits, _⟩ := Term.allFit_append.mp fit
      obtain ⟨left, middle, reached, denotes, kept⟩ := induction split fit
      obtain ⟨right, state, evaluated, denotes'⟩ := supplies.next split reached
      obtain ⟨both, denotes⟩ := denotes_waiting careful kept denotes evaluated
      obtain ⟨result, last, applied, exact, kept⟩ :=
        (applyArithmetic_exact both denotes denotes').1 fits
      refine ⟨result, last, ?_, ?_, kept⟩
      · rw [List.map_append, arithmeticFrom_append, bind_run, reached]
        show arithmeticChain nested.toOperands left [(term.operator, term.operand)] middle = _
        rw [arithmeticChain_cons evaluated, bind_run, applied]
        rfl
      · rw [Term.total_append]
        exact exact

theorem Supplies.calculates (careful : nested.Careful)
    (supplies : Supplies nested.toOperands kind first number terms moment)
    (held : Holding Ledger.Orderly depth hand moment) (span : Span) :
    Calculates nested.toOperands kind first number terms span moment
      (located span (arithmeticFrom nested.toOperands first (terms.map Term.link)) moment) := by
  by_cases fit : Term.AllFit kind number terms
  · obtain ⟨value, last, reached, denotes, _⟩ :=
      supplies.reaches careful held (List.append_nil terms).symm fit
    rw [located, reached]
    exact .value fit denotes
  · obtain ⟨before, term, after, split, good, bad⟩ := Term.exists_first_of_not_allFit fit
    obtain ⟨left, middle, reached, denotes, kept⟩ := supplies.reaches careful held split good
    obtain ⟨right, last, evaluated, denotes'⟩ := supplies.next split reached
    obtain ⟨both, denotes⟩ := denotes_waiting careful kept denotes evaluated
    have applied := (applyArithmetic_exact both denotes denotes').2 bad
    have failed : arithmeticFrom nested.toOperands first (terms.map Term.link) moment =
        .failure (.of (term.operator.cause term.number)) (last.releaseAll [left, right]) := by
      rw [split, List.map_append, arithmeticFrom_append, bind_run, reached]
      show arithmeticChain nested.toOperands left
        ((term.operator, term.operand) :: after.map Term.link) middle = _
      rw [arithmeticChain_cons evaluated, bind_run, applied]
    rw [located, failed]
    exact .failure split good bad reached evaluated

/-! ## Nested nodes -/

theorem arithmeticFrom_fallsShort {fuel more : Nat} (fewer : fuel ≤ more) (first : ExpressionId)
    (rest : List (ArithmeticOperator × ExpressionId)) :
    (arithmeticFrom (Nested.withFuel setup fuel).toOperands first rest).FallsShort
      (arithmeticFrom (Nested.withFuel setup more).toOperands first rest) := by
  have below := (@Nested.withFuel_below setup _ _ fewer).operands
  exact .of_below ((below.evaluate first).bind fun left => below.arithmeticChain rest left)

end Evaluation

/-- A node stands for a chain by nested nodes with one operator each, in the innermost of
which is the first operand. -/
inductive Program.Associates (program : Program) (first : ExpressionId) :
    List (ArithmeticOperator × ExpressionId) → ExpressionId → Prop where
  | operand : program.Associates first [] first
  | node {earlier : List (ArithmeticOperator × ExpressionId)} {inner id : ExpressionId}
      {link : ArithmeticOperator × ExpressionId} {span : Span} :
      program.Associates first earlier inner →
      program.expression? id = some ⟨.arithmetic inner [link], span⟩ →
        program.Associates first (earlier ++ [link]) id

namespace Nested

variable {setup : Setup} {id first node : ExpressionId} {span : Span}
  {rest : List (ArithmeticOperator × ExpressionId)}

theorem evaluate_arithmetic
    (found : setup.program.expression? id = some ⟨.arithmetic first rest, span⟩) (fuel : Nat) :
    (withFuel setup (fuel + 1)).evaluate id =
      located span (arithmeticFrom (withFuel setup fuel).toOperands first rest) := by
  rw [evaluate_eq found]
  rfl

/-- Nested nodes need the more fuel the deeper they are. -/
theorem arithmeticFrom_forth (associates : setup.program.Associates first rest node)
    (fuel : Nat) :
    ∃ more, (arithmeticFrom (withFuel setup fuel).toOperands first rest).FallsShort
      ((withFuel setup more).evaluate node) := by
  induction associates with
  | operand =>
      refine ⟨fuel, ?_⟩
      rw [arithmeticFrom_nil]
      exact .refl _
  | @node earlier inner node link span associates found induction =>
      obtain ⟨more, short⟩ := induction
      refine ⟨max fuel more + 1, ?_⟩
      rw [evaluate_arithmetic found, arithmeticFrom_append]
      refine FallsShort.locatedRight (FallsShort.bind ?_ fun left => ?_) span
      · have enough := (@withFuel_below setup _ _ (le_max_right fuel more)).operands
        exact short.trans (.of_below (enough.evaluate inner))
      · have enough := (@withFuel_below setup _ _ (le_max_left fuel more)).operands
        exact .of_below (enough.arithmeticChain [link] left)

theorem arithmeticFrom_back (associates : setup.program.Associates first rest node)
    (fuel : Nat) :
    ((withFuel setup fuel).evaluate node).FallsShort
      (arithmeticFrom (withFuel setup fuel).toOperands first rest) := by
  induction associates generalizing fuel with
  | operand =>
      rw [arithmeticFrom_nil]
      exact .refl _
  | @node earlier inner node link span associates found induction =>
      cases fuel with
      | zero => exact .of_stop
      | succ fuel =>
          rw [evaluate_arithmetic found]
          refine FallsShort.locatedLeft (FallsShort.trans ?_
            (arithmeticFrom_fallsShort (Nat.le_succ fuel) first _)) span
          rw [arithmeticFrom_append]
          exact (induction fuel).bind fun left => .refl _

/-- A chain does what nested nodes with one operator each do. -/
theorem arithmetic_associates
    (found : setup.program.expression? id = some ⟨.arithmetic first rest, span⟩)
    (associates : setup.program.Associates first rest node) :
    Concur (fun fuel => (withFuel setup fuel).evaluate id)
      fun fuel => (withFuel setup fuel).evaluate node := by
  apply Concur.of_fallsShort fun fewer => (withFuel_below fewer).operands.evaluate node
  · intro fuel
    cases fuel with
    | zero => exact ⟨0, .of_stop⟩
    | succ fuel =>
        obtain ⟨more, short⟩ := arithmeticFrom_forth associates fuel
        rw [evaluate_arithmetic found]
        exact ⟨more, short.locatedLeft span⟩
  · intro fuel
    refine ⟨fuel + 1, ?_⟩
    rw [evaluate_arithmetic found]
    exact (arithmeticFrom_back associates fuel).locatedRight span

end Nested

namespace Session

variable {session : Session} {program : Program} {builtins : BuiltinTable} {sink : Sink}
  {limit : Option Nat} {requests : List (Nat × Request)}

/-- At any moment of any request, a chain of arithmetic operators whose operands, as far as
it gets, evaluate to words of one kind gives a value if and only if every operator has a
result in the range of the kind, and then the exact total.  Otherwise it fails at the first
operator that has none.  Whatever its operands are, in any state at all it does what nested
nodes with one operator each do. -/
theorem Runs.arithmetic_exact (lawful : builtins.Lawful)
    (runs : Runs (start program builtins sink limit) requests session) {fuel : Nat}
    {request : Request} {moment : State} (visits : session.Visits fuel request moment)
    {id first : ExpressionId} {rest : List (ArithmeticOperator × ExpressionId)} {span : Span}
    (found : program.expression? id = some ⟨.arithmetic first rest, span⟩) :
    let nested := Nested.withFuel ⟨program, builtins⟩
    (∀ {more kind number terms}, rest = terms.map Term.link →
      Supplies (nested more).toOperands kind first number terms moment →
        ((∃ value last, (nested (more + 1)).evaluate id moment = .value value last) ↔
          Term.AllFit kind number terms) ∧
        Calculates (nested more).toOperands kind first number terms span moment
          ((nested (more + 1)).evaluate id moment)) ∧
      ∀ {node}, program.Associates first rest node →
        Concur (fun fuel => (nested fuel).evaluate id) fun fuel => (nested fuel).evaluate node := by
  have upholds := runs.upholds Ledger.Orderly.hosted (by simp)
    (start_upholds lawful Ledger.Orderly.blank)
  obtain ⟨hand, ordered⟩ := upholds.visited Ledger.Orderly.hosted (by simp) visits
  have held : Holding Ledger.Orderly moment.calls.depth hand moment := ⟨ordered, rfl⟩
  refine ⟨?_, fun associates => @Nested.arithmetic_associates ⟨program, builtins⟩ _ _ _ _ _ found
    associates⟩
  rintro more kind number terms rfl supplies
  rw [@Nested.evaluate_arithmetic ⟨program, builtins⟩ _ _ _ _ found]
  have calculates := supplies.calculates
    (@Nested.withFuel_careful ⟨program, builtins⟩ lawful more) held span
  exact ⟨calculates.succeeds_iff, calculates⟩

/-- Seven divided by minus two, and the remainder of that by seven, in one node and in two;
and a chain that divides by zero before it gets to a variable that is not defined. -/
def reckoning : Program where
  expressions :=
    #[⟨.literal (.int 7), .empty⟩, ⟨.literal (.int (-2)), .empty⟩, ⟨.literal (.int 0), .empty⟩,
      ⟨.reference ⟨0⟩, .empty⟩, ⟨.arithmetic ⟨0⟩ [(.divide, ⟨1⟩), (.remainder, ⟨0⟩)], .empty⟩,
      ⟨.arithmetic ⟨0⟩ [(.remainder, ⟨2⟩), (.add, ⟨3⟩)], .empty⟩,
      ⟨.arithmetic ⟨0⟩ [(.divide, ⟨1⟩)], .empty⟩, ⟨.arithmetic ⟨6⟩ [(.remainder, ⟨0⟩)], .empty⟩]

theorem Runs.arithmetic_exact_reckoning :
    let moment := (start reckoning .standard .silent none).state
    let nested := Nested.withFuel ⟨reckoning, .standard⟩
    (∃ value last, (nested 9).evaluate ⟨4⟩ moment = .value value last ∧
      last.heap.Denotes .int value (-3) ∧
      ∀ fuel, (nested fuel).evaluate ⟨7⟩ moment ≠ .stopped .outOfFuel →
        (nested fuel).evaluate ⟨7⟩ moment = .value value last) ∧
    ∃ last, (nested 9).evaluate ⟨5⟩ moment =
      .failure ((Failure.of .moduloByZero).locate .empty) last := by
  intro moment nested
  have runs := Runs.nil (start reckoning .standard .silent none)
  have visits := (start reckoning .standard .silent none).visits_start 8 ⟨0⟩
  have starts : ∃ value state, (nested 8).evaluate ⟨0⟩ moment = .value value state ∧
      state.heap.Denotes .int value 7 := by
    have ran : ((nested 8).evaluate ⟨0⟩ moment).value?.any (fun given =>
        given.2.heap.Denotes .int given.1 7) = true := by decide +kernel
    obtain ⟨value, state, evaluated, denotes⟩ := Outcome.exists_of_any ran
    exact ⟨value, state, evaluated, of_decide_eq_true denotes⟩
  have supplies : ∀ {terms},
      suppliedFrom (nested 8).toOperands .int ((nested 8).evaluate ⟨0⟩ moment) terms = true →
        Supplies (nested 8).toOperands .int ⟨0⟩ 7 terms moment := by
    intro terms supplied
    refine ⟨starts, ?_⟩
    rintro before term after rfl left state reached
    exact suppliedFrom_sound supplied reached
  constructor
  · obtain ⟨exact, associates⟩ :=
      @Runs.arithmetic_exact _ _ _ _ _ _ BuiltinTable.standard_lawful runs _ _ _ visits ⟨4⟩ ⟨0⟩
        [(.divide, ⟨1⟩), (.remainder, ⟨0⟩)] .empty rfl
    obtain ⟨succeeds, calculates⟩ := @exact 8 .int 7 [⟨.divide, ⟨1⟩, -2⟩, ⟨.remainder, ⟨0⟩, 7⟩] rfl
      (supplies (by decide +kernel))
    obtain ⟨value, last, ended⟩ := succeeds.mpr (by decide)
    refine ⟨value, last, ended, ?_, ?_⟩
    · rw [ended] at calculates
      cases calculates with
      | value _ denotes => exact denotes
    · intro fuel going
      have inner : reckoning.Associates ⟨0⟩ [(.divide, ⟨1⟩)] ⟨6⟩ :=
        @Program.Associates.node _ _ [] _ _ _ .empty .operand rfl
      have outer : reckoning.Associates ⟨0⟩ [(.divide, ⟨1⟩), (.remainder, ⟨0⟩)] ⟨7⟩ :=
        @Program.Associates.node _ _ _ _ _ _ .empty inner rfl
      have same := @Concur.same _ _ _ (associates outer) moment 9 fuel
        (fun stopped => by cases ended.symm.trans stopped) going
      rw [ended] at same
      generalize (nested fuel).evaluate ⟨7⟩ moment = other at same
      cases same with
      | value _ _ => rfl
  · obtain ⟨exact, _⟩ :=
      @Runs.arithmetic_exact _ _ _ _ _ _ BuiltinTable.standard_lawful runs _ _ _ visits ⟨5⟩ ⟨0⟩
        [(.remainder, ⟨2⟩), (.add, ⟨3⟩)] .empty rfl
    obtain ⟨_, calculates⟩ := @exact 8 .int 7 [⟨.remainder, ⟨2⟩, 0⟩, ⟨.add, ⟨3⟩, 0⟩] rfl
      (supplies (by decide +kernel))
    generalize (nested 9).evaluate ⟨5⟩ moment = outcome at calculates
    cases calculates with
    | value fit _ => exact absurd fit (by decide)
    | @failure before after term _ _ _ _ split good _ _ _ =>
        cases before with
        | nil =>
            cases split
            exact ⟨_, rfl⟩
        | cons other others =>
            obtain ⟨rfl, _⟩ := List.cons.inj split
            exact absurd good.1 (by decide)

end Session

end ScriptEngine
