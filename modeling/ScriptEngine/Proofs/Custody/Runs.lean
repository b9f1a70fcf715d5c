import ScriptEngine.Proofs.Custody.Calls

/-!
# Runs

Lasting properties hold throughout every run: when it ends, and at every
moment at which the evaluation of a node begins or ends.  Such a moment is
found by an observer that interrupts the run there.
-/

namespace ScriptEngine

variable {licence : Licence} {property : Ledger → Prop} {setup : Setup}

namespace Evaluation

variable {nested : Nested}

theorem statement_triple (lasting : Ledger.Lasting licence property)
    (sound : nested.Sound property) (id : StatementId) (node : Statement) (span : Span)
    (depth : Nat) (hand : Hand) :
    Triple (Holding property depth hand) (statement setup nested id node span)
      (fun _ => Holding property depth hand) (Holding property depth hand) := by
  have stable := Holding.stable lasting depth
  have operands := sound.operands depth
  cases node with
  | expression value =>
      apply Triple.located
      apply Triple.bind (operands.evaluate value hand)
      intro address
      rw [← hand.ownAll_nil, ← Hand.ownAll_cons, hand.ownAll_nil]
      exact Triple.release stable
  | declare name value =>
      exact Triple.located (declareVariable_triple stable operands id name value hand)
  | block body => exact Triple.located (block_triple lasting sound body hand)
  | branch test body otherwise =>
      apply Triple.bind (condition_triple stable operands test hand)
      intro enters
      apply Triple.located
      split
      · exact block_triple lasting sound body hand
      · split
        · exact sound.execute _ depth hand
        · exact Triple.pure fun state held => held
  | forEach name iterable body =>
      exact Triple.located (forEach_triple lasting sound name iterable body hand)
  | whileLoop test body =>
      apply Triple.located
      exact inLoop_triple (whileFrom_triple lasting sound test body nested.iterations hand)
  | doWhile body test =>
      apply Triple.located
      exact inLoop_triple (doWhileFrom_triple lasting sound body test nested.iterations hand)
  | forever body =>
      apply Triple.located
      exact inLoop_triple (foreverFrom_triple lasting sound body nested.iterations hand)
  | breakLoop => exact Triple.located (breakLoop_triple hand)
  | continueLoop => exact Triple.located (continueLoop_triple lasting hand)
  | giveBack value => exact Triple.located (giveBack_triple lasting sound value hand)

end Evaluation

open Evaluation

namespace Nested

theorem layer_sound (lasting : Ledger.Lasting licence property)
    (abides : setup.builtins.Abides licence.careless) {inner : Nested} (sound : inner.Sound property) (iterations : Nat) :
    (layer setup (fun () => inner) iterations).Sound property := by
  have calls : ∀ depth, CallsSound (Holding property depth) setup
      (callUser setup (runCall setup inner)) := by
    intro depth
    constructor
    · exact callBuiltin_triple (Holding.stable lasting depth) abides
    · intro function arguments callSite hand
      rw [← Hand.carryAll_false]
      exact callUser_triple lasting sound (by simp) function arguments callSite hand
  constructor
  · intro depth
    have stable := Holding.stable lasting depth
    have operands := sound.operands depth
    constructor
    · intro id hand
      show Triple _ (withExpression setup id _) _ _
      unfold withExpression
      split
      · exact expression_triple stable operands (calls depth) id _ _ hand
      · exact Triple.stop (by simp)
    · intro id hand
      show Triple _ (withExpression setup id _) _ _
      unfold withExpression
      split
      · exact sharedExpression_triple stable operands id _ _ hand
      · exact Triple.stop (by simp)
    · intro id hand
      show Triple _ (withExpression setup id _) _ _
      unfold withExpression
      split
      · exact targetExpression_triple stable operands _ _ hand
      · exact Triple.stop (by simp)
  · intro id depth hand
    show Triple _ (withStatement setup id _) _ _
    unfold withStatement
    split
    · exact statement_triple lasting sound id _ _ depth hand
    · exact Triple.stop (by simp)

theorem exhausted_sound : exhausted.Sound property where
  operands _ :=
    { evaluate := fun _ _ => Triple.stop (by simp)
      share := fun _ _ => Triple.stop (by simp)
      target := fun _ _ => Triple.stop (by simp) }
  execute _ _ _ := Triple.stop (by simp)

end Nested

/-! ## Observed runs -/

/-- What lets an evaluation halt, and for which reason. -/
abbrev Halt := State → Option Stop

open Classical in
/-- An observer that interrupts what it does not allow. -/
noncomputable def Halt.allowing (allowed : State → Prop) : Halt :=
  fun state => if allowed state then none else some .interrupted

namespace Evaluation

variable {α β : Type}

/-- What is done next however an evaluation ends. -/
def finish (body : Evaluation α) (next : α → Evaluation β) (failed : Failure → Evaluation β) :
    Evaluation β :=
  fun state =>
    match body state with
    | .value result last => next result last
    | .failure failure last => failed failure last
    | .stopped reason => .stopped reason

/-- A failure that there has been already. -/
def raise (failure : Failure) : Evaluation α :=
  fun state => .failure failure state

/-- Halted where it begins. -/
def gated (halt : Halt) (body : Evaluation α) : Evaluation α :=
  fun state =>
    match halt state with
    | some reason => .stopped reason
    | none => body state

/-- Halted where it begins or ends. -/
def heeding (halt : Halt) (body : Evaluation α) : Evaluation α :=
  gated halt (body.finish (fun result => gated halt (pure result))
    fun failure => gated halt (raise failure))

/-- Interrupted where it begins or ends in a state that is not allowed. -/
noncomputable def observed (allowed : State → Prop) (body : Evaluation α) : Evaluation α :=
  heeding (.allowing allowed) body

open Classical in
theorem observed_run (allowed : State → Prop) (body : Evaluation α) (state : State) :
    observed allowed body state =
      if allowed state then
        match body state with
        | .value result state =>
            if allowed state then .value result state else .stopped .interrupted
        | .failure failure state =>
            if allowed state then .failure failure state else .stopped .interrupted
        | .stopped reason => .stopped reason
      else .stopped .interrupted := by
  have gates : ∀ {γ : Type} (body : Evaluation γ) state, gated (.allowing allowed) body state =
      if allowed state then body state else .stopped .interrupted := by
    intro γ body state
    rw [gated, Halt.allowing]
    by_cases here : allowed state
    · rw [if_pos here, if_pos here]
    · rw [if_neg here, if_neg here]
  rw [observed, heeding, gates, finish]
  simp only [gates]
  rfl

/-- An observer that allows everything changes nothing. -/
theorem observed_of_always {allowed : State → Prop} (always : ∀ state, allowed state)
    (body : Evaluation α) : observed allowed body = body := by
  funext state
  rw [observed_run]
  simp only [always, if_true]
  cases body state with
  | value result last => rfl
  | failure failure last => rfl
  | stopped reason => rfl

end Evaluation

/-- An observer does not interrupt what it allows. -/
theorem Evaluation.Triple.observed {α : Type} {allowed before failed : State → Prop}
    {after : α → State → Prop} {body : Evaluation α} (triple : Triple before body after failed)
    (starts : ∀ state, before state → allowed state)
    (ends : ∀ result state, after result state → allowed state)
    (fails : ∀ state, failed state → allowed state) :
    Triple before (Evaluation.observed allowed body) after failed := by
  intro state holds
  have ended := triple state holds
  rw [observed_run, if_pos (starts state holds)]
  cases outcome : body state with
  | value result state =>
      rw [outcome] at ended
      simp only [if_pos (ends result state ended)]
      exact ended
  | failure failure state =>
      rw [outcome] at ended
      simp only [if_pos (fails state ended)]
      exact ended
  | stopped reason =>
      rw [outcome] at ended
      exact ended

namespace Nested

/-- The evaluator that halts at the nodes where it is to. -/
def heeding (halt : Halt) (nested : Nested) : Nested where
  evaluate id := Evaluation.heeding halt (nested.evaluate id)
  share id := Evaluation.heeding halt (nested.share id)
  target id := Evaluation.heeding halt (nested.target id)
  execute id := Evaluation.heeding halt (nested.execute id)
  iterations := nested.iterations

noncomputable def observed (allowed : State → Prop) (nested : Nested) : Nested :=
  heeding (.allowing allowed) nested

theorem observed_of_always {allowed : State → Prop} (always : ∀ state, allowed state)
    (nested : Nested) : observed allowed nested = nested := by
  have same : ∀ {α : Type} (body : Evaluation α), body.heeding (.allowing allowed) = body :=
    Evaluation.observed_of_always always
  simp only [observed, heeding, same]

theorem observed_operands {nested : Nested} {holds : Assertion} {allowed : State → Prop}
    (sound : nested.toOperands.Sound holds)
    (allows : ∀ hand state, holds hand state → allowed state) :
    (observed allowed nested).toOperands.Sound holds where
  evaluate id hand :=
    (sound.evaluate id hand).observed (allows _) (fun _ => allows _) (allows _)
  share id hand := (sound.share id hand).observed (allows _) (fun _ => allows _) (allows _)
  target id hand := (sound.target id hand).observed (allows _) (fun _ => allows _) (allows _)

/-- The evaluator with fuel that halts at the nodes where it is to. -/
def heeded (setup : Setup) (halt : Halt) : Nat → Nested
  | 0 => exhausted
  | fuel + 1 => heeding halt (layer setup (fun () => heeded setup halt fuel) fuel)

/-- The evaluator with fuel, every node of which is observed. -/
noncomputable def watched (setup : Setup) (allowed : State → Prop) : Nat → Nested :=
  heeded setup (.allowing allowed)

theorem watched_succ (setup : Setup) (allowed : State → Prop) (fuel : Nat) :
    watched setup allowed (fuel + 1) =
      observed allowed (layer setup (fun () => watched setup allowed fuel) fuel) := rfl

theorem watched_true (setup : Setup) (fuel : Nat) :
    watched setup (fun _ => True) fuel = withFuel setup fuel := by
  induction fuel with
  | zero => rfl
  | succ fuel induction =>
      rw [watched_succ, withFuel, induction, observed_of_always fun _ => trivial]

theorem watched_sound (lasting : Ledger.Lasting licence property)
    (abides : setup.builtins.Abides licence.careless) {allowed : State → Prop}
    (allows : ∀ state hand, property (state.ledger hand) → allowed state) (fuel : Nat) :
    (watched setup allowed fuel).Sound property := by
  induction fuel with
  | zero => exact exhausted_sound
  | succ fuel induction =>
      have layered := layer_sound lasting abides induction fuel
      have allowing {depth : Nat} {hand : Hand} (state : State)
          (held : Holding property depth hand state) : allowed state :=
        allows state hand held.1
      constructor
      · exact fun depth => observed_operands (layered.operands depth) fun _ => allowing
      · intro id depth hand
        exact (layered.execute id depth hand).observed allowing (fun _ => allowing) allowing

theorem withFuel_sound (lasting : Ledger.Lasting licence property)
    (abides : setup.builtins.Abides licence.careless) (fuel : Nat) :
    (withFuel setup fuel).Sound property := by
  rw [← watched_true]
  exact watched_sound lasting abides (fun _ _ _ => trivial) fuel

end Nested

end ScriptEngine
