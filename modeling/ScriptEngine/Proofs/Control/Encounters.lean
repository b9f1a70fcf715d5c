import ScriptEngine.Proofs.Control.Stacks

/-!
# Encounters

Running a statement list comes to statements without entering a loop or a
call: those of the list, and those of the blocks and branches among them.  The
names that the innermost frame gains are declared by statements of the list
itself, and the frames that are marked are marked by a `continue` that the run
comes to.
-/

namespace ScriptEngine

open Evaluation

namespace Evaluation

variable {α β : Type} {body : Evaluation α} {state after : State}

theorem state?_located (span : Span) (body : Evaluation α) (state : State) :
    (located span body state).state? = (body state).state? := by
  unfold located
  cases body state with
  | value result last => rfl
  | failure failure last => rfl
  | stopped reason => rfl

theorem state?_inScope (body : Evaluation α) (state : State) :
    (inScope body state).state? =
      (body { state with scopes := state.scopes.push }).state?.map fun inner =>
        (inner.onStorage fun scopes heap => ((), scopes.pop heap)).2 := by
  unfold inScope ensuring
  cases body { state with scopes := state.scopes.push } with
  | value result last => rfl
  | failure failure last => rfl
  | stopped reason => rfl

/-- The second of two evaluations begins where the first one has given a
value. -/
theorem state?_bind {next : α → Evaluation β} (ended : ((body >>= next) state).state? = some after) :
    (∃ failure, body state = .failure failure after) ∨
      ∃ result middle, body state = .value result middle ∧
        (next result middle).state? = some after := by
  rw [bind_run] at ended
  cases outcome : body state with
  | value result middle =>
      rw [outcome] at ended
      exact Or.inr ⟨result, middle, rfl, ended⟩
  | failure failure last =>
      rw [outcome] at ended
      cases ended
      exact Or.inl ⟨failure, rfl⟩
  | stopped reason => simp [outcome, Outcome.state?] at ended

end Evaluation

namespace Nested

variable {setup : Setup} {fuel : Nat} {id : StatementId} {statements others : List StatementId}
  {state before after : State}

/-- The statements that running a list from a state comes to outside of the
loops and calls that it enters, with the number of blocks they lie in. -/
inductive Encounters (setup : Setup) :
    Nat → List StatementId → State → Nat → StatementId → Prop where
  | here {fuel : Nat} {id : StatementId} {others : List StatementId} {state : State} :
      Encounters setup fuel (id :: others) state 0 id
  | next {fuel blocks : Nat} {id target : StatementId} {others : List StatementId}
      {state after : State} :
      (withFuel setup fuel).execute id state = .value () after → after.hasSignal = false →
      Encounters setup fuel others after blocks target →
      Encounters setup fuel (id :: others) state blocks target
  | block {fuel blocks : Nat} {id target : StatementId} {others : List StatementId}
      {state : State} {body : Block} {span : Span} :
      setup.program.statement? id = some ⟨.block body, span⟩ →
      Encounters setup fuel body.statements { state with scopes := state.scopes.push } blocks
        target →
      Encounters setup (fuel + 1) (id :: others) state (blocks + 1) target
  | branch {fuel blocks : Nat} {id target : StatementId} {others : List StatementId}
      {state entered : State} {test : ExpressionId} {body : Block}
      {otherwise : Option StatementId} {span : Span} :
      setup.program.statement? id = some ⟨.branch test body otherwise, span⟩ →
      condition setup (withFuel setup fuel).toOperands test state = .value true entered →
      Encounters setup fuel body.statements { entered with scopes := entered.scopes.push } blocks
        target →
      Encounters setup (fuel + 1) (id :: others) state (blocks + 1) target
  | otherwise {fuel blocks : Nat} {id other target : StatementId} {others : List StatementId}
      {state entered : State} {test : ExpressionId} {body : Block} {span : Span} :
      setup.program.statement? id = some ⟨.branch test body (some other), span⟩ →
      condition setup (withFuel setup fuel).toOperands test state = .value false entered →
      Encounters setup fuel [other] entered blocks target →
      Encounters setup (fuel + 1) (id :: others) state blocks target

theorem Encounters.extend {blocks : Nat} {target : StatementId}
    (met : Encounters setup fuel [id] state blocks target) (others : List StatementId) :
    Encounters setup fuel (id :: others) state blocks target := by
  cases met with
  | here => exact .here
  | next executed calm rest => nomatch rest
  | block found inside => exact .block found inside
  | branch found holds inside => exact .branch found holds inside
  | otherwise found fails inside => exact .otherwise found fails inside

/-- Names that are bound and frames that are marked come of statements among
those that a run meets. -/
structure Explains (setup : Setup) (meets : Nat → StatementId → Prop) (before after : State) :
    Prop where
  names : ∀ (position : Nat) (name : Name), after.scopes.binds position name = true →
    before.scopes.binds position name = true ∨
      ∃ target value span, meets 0 target ∧
        setup.program.statement? target = some ⟨.declare name value, span⟩
  marks : ∀ position : Nat, after.scopes.skips[position]? = some true →
    before.scopes.skips[position]? = some true ∨
      ∃ blocks target span, meets blocks target ∧
        setup.program.statement? target = some ⟨.continueLoop, span⟩

namespace Explains

variable {meets meets' : Nat → StatementId → Prop}

theorem refl (state : State) : Explains setup meets state state :=
  ⟨fun _ _ bound => Or.inl bound, fun _ marked => Or.inl marked⟩

theorem trans {middle : State} (first : Explains setup meets before middle)
    (second : Explains setup meets middle after) : Explains setup meets before after where
  names position name bound := by
    rcases second.names position name bound with old | blamed
    · exact first.names position name old
    · exact Or.inr blamed
  marks position marked := by
    rcases second.marks position marked with old | blamed
    · exact first.marks position old
    · exact Or.inr blamed

theorem mono (explains : Explains setup meets' before after)
    (comes : ∀ blocks target, meets' blocks target → meets blocks target) :
    Explains setup meets before after where
  names position name bound := by
    rcases explains.names position name bound with old | ⟨target, value, span, met, declares⟩
    · exact Or.inl old
    · exact Or.inr ⟨target, value, span, comes 0 target met, declares⟩
  marks position marked := by
    rcases explains.marks position marked with old | ⟨blocks, target, span, met, continues⟩
    · exact Or.inl old
    · exact Or.inr ⟨blocks, target, span, comes blocks target met, continues⟩

/-- What an expression leaves behind needs no explanation. -/
theorem of_keeps (keeps : before.Keeps .expression after) :
    Explains setup meets before after where
  names position name bound := by
    rcases keeps.binds position name bound with old | ⟨other, _⟩
    · exact Or.inl old
    · exact absurd other (by decide)
  marks position marked := by
    rcases keeps.skips position marked with old | ⟨other, _⟩
    · exact Or.inl old
    · exact absurd rfl other

/-- Names that are bound inside a block are gone, and what is marked there is
one block further in. -/
theorem popScope {inner : State}
    (keeps : State.Keeps .statement { before with scopes := before.scopes.push } inner)
    (explains : Explains setup meets' { before with scopes := before.scopes.push } inner)
    (comes : ∀ blocks target, meets' blocks target → meets (blocks + 1) target) :
    Explains setup meets before
      (inner.onStorage fun scopes heap => ((), scopes.pop heap)).2 where
  names position name bound := by
    rcases keeps.popScope.binds position name bound with old | ⟨other, _⟩
    · exact Or.inl old
    · exact absurd other (by decide)
  marks position marked := by
    rcases explains.marks position (keeps.marked_popScope marked) with old | blamed
    · exact Or.inl (Scopes.marked_of_push old)
    · obtain ⟨blocks, target, span, met, continues⟩ := blamed
      exact Or.inr ⟨blocks + 1, target, span, comes blocks target met, continues⟩

end Explains

theorem declare_explained {name : Name} {value : Option ExpressionId} {span : Span}
    {start last : State}
    (found : setup.program.statement? id = some ⟨.declare name value, span⟩)
    (ended : (declareVariable setup (withFuel setup fuel).toOperands id name value start).state? =
      some last) :
    Explains setup (Encounters setup (fuel + 1) [id] start) start last := by
  have keeps : (initialValue setup (withFuel setup fuel).toOperands id value).Keeps .expression :=
    (withFuel_related (.keeping setup) fuel).operands.initialValue id value
  rcases state?_bind ended with ⟨failure, failed⟩ | ⟨address, middle, evaluated, declared⟩
  · exact .of_keeps (keeps.of_failure failed)
  · apply Explains.trans (.of_keeps (keeps.of_value evaluated))
    · have scopes : last.scopes =
          middle.scopes.modifyFrame middle.scopes.nested.size (·.put name address) := by
        rw [← Option.some.inj declared]
      constructor
      · intro position other bound
        rw [scopes, Scopes.binds, Scopes.get?_put _ _ _ (Nat.lt_succ_self _)] at bound
        by_cases same : position = middle.scopes.nested.size ∧ other = name
        · exact Or.inr ⟨id, value, span, .here, by rw [found, same.2]⟩
        · rw [if_neg same] at bound
          exact Or.inl bound
      · intro position marked
        rw [scopes, Scopes.skips_put] at marked
        exact Or.inl marked

section

variable (executes : ∀ (id : StatementId) (start last : State),
  ((withFuel setup fuel).execute id start).state? = some last →
    Explains setup (Encounters setup fuel [id] start) start last)
include executes

theorem sequence_explained (statements : List StatementId) {start last : State}
    (ended : (Evaluation.sequence (withFuel setup fuel) statements start).state? = some last) :
    Explains setup (Encounters setup fuel statements start) start last := by
  induction statements generalizing start with
  | nil => exact Option.some.inj ended ▸ .refl start
  | cons id others induction =>
      rcases state?_bind ended with ⟨failure, failed⟩ | ⟨_, middle, executed, ended⟩
      · have first := executes id start last (by rw [failed, Outcome.state?])
        exact first.mono fun _ _ met => met.extend others
      · have first := (executes id start middle (by rw [executed, Outcome.state?])).mono
          fun _ _ met => met.extend others
        rw [bind_run, Evaluation.read] at ended
        cases signal : middle.hasSignal with
        | true =>
            simp only [signal, if_true] at ended
            cases ended
            exact first
        | false =>
            simp only [signal] at ended
            exact first.trans ((induction ended).mono fun _ _ met => .next executed signal met)

theorem block_explained (body : Block) {start last : State} {meets : Nat → StatementId → Prop}
    (comes : ∀ blocks target,
      Encounters setup fuel body.statements { start with scopes := start.scopes.push } blocks
        target → meets (blocks + 1) target)
    (ended : (Evaluation.block (withFuel setup fuel) body start).state? = some last) :
    Explains setup meets start last := by
  rw [Evaluation.block, state?_inScope] at ended
  obtain ⟨inner, ran, rfl⟩ := Option.map_eq_some_iff.mp ended
  have keeps : (Evaluation.sequence (withFuel setup fuel) body.statements).Keeps .statement :=
    (withFuel_related (.keeping setup) fuel).sequence body.statements
  exact .popScope (keeps.of_state? ran) (sequence_explained executes body.statements ran) comes

theorem branch_explained {test : ExpressionId} {body : Block} {otherwise : Option StatementId}
    {span : Span} {start last : State}
    (found : setup.program.statement? id = some ⟨.branch test body otherwise, span⟩)
    (ended : (statement setup (withFuel setup fuel) id (.branch test body otherwise)
      span start).state? = some last) :
    Explains setup (Encounters setup (fuel + 1) [id] start) start last := by
  have tests : (condition setup (withFuel setup fuel).toOperands test).Keeps .expression :=
    (withFuel_related (.keeping setup) fuel).operands.condition test
  rcases state?_bind ended with ⟨failure, failed⟩ | ⟨holds, entered, tested, ended⟩
  · exact .of_keeps (tests.of_failure failed)
  · apply Explains.trans (.of_keeps (tests.of_value tested))
    · rw [state?_located] at ended
      cases holds with
      | true => exact block_explained executes body (fun _ _ met => .branch found tested met) ended
      | false =>
          cases otherwise with
          | none => exact Option.some.inj ended ▸ .refl entered
          | some other =>
              exact (executes other entered last ended).mono fun _ _ met =>
                .otherwise found tested met

theorem statement_explained {node : Statement} {span : Span} {start last : State}
    (found : setup.program.statement? id = some ⟨node, span⟩)
    (ended : (statement setup (withFuel setup fuel) id node span start).state? = some last) :
    Explains setup (Encounters setup (fuel + 1) [id] start) start last := by
  have related := withFuel_related (.keeping setup) fuel
  have still : ∀ {body : Evaluation Unit}, body.Keeps .expression →
      (located span body start).state? = some last →
        Explains setup (Encounters setup (fuel + 1) [id] start) start last := by
    intro body keeps ended
    rw [state?_located] at ended
    exact .of_keeps (keeps.of_state? ended)
  cases node with
  | expression value =>
      have released : ∀ address, (release [address]).Related (.keeping setup) .expression
          (release [address]) := fun address => .release [address]
      exact still ((related.operands.evaluate value).bind released) ended
  | declare name value =>
      rw [statement, state?_located] at ended
      exact declare_explained found ended
  | block body =>
      rw [statement, state?_located] at ended
      exact block_explained executes body (fun _ _ met => .block found met) ended
  | branch test body otherwise => exact branch_explained executes found ended
  | forEach name iterable body => exact still (related.forEach name iterable body) ended
  | whileLoop test body => exact still (related.whileFrom test body).inLoop ended
  | doWhile body test => exact still (related.doWhileFrom body test).inLoop ended
  | forever body => exact still (related.foreverFrom body).inLoop ended
  | breakLoop => exact still .breakLoop ended
  | continueLoop =>
      rw [statement, state?_located] at ended
      have keeps := Evaluation.Keeps.continueLoop.of_state? ended
      constructor
      · intro position name bound
        rcases keeps.binds position name bound with old | ⟨other, _⟩
        · exact Or.inl old
        · exact absurd other (by decide)
      · exact fun _ _ => Or.inr ⟨0, id, span, .here, found⟩
  | giveBack value =>
      exact still ((related.operands.resultValue value).bind (Coupling.keeping setup).setResult)
        ended

end

/-- Whatever running a statement does to the frames that are there is done by
statements it comes to. -/
theorem execute_explained (setup : Setup) (fuel : Nat) (id : StatementId) (start last : State)
    (ended : ((withFuel setup fuel).execute id start).state? = some last) :
    Explains setup (Encounters setup fuel [id] start) start last := by
  induction fuel generalizing id start last with
  | zero => simp [withFuel, exhausted, stop, Outcome.state?] at ended
  | succ fuel induction =>
      have unfolded : (withFuel setup (fuel + 1)).execute id =
          withStatement setup id fun node span =>
            statement setup (withFuel setup fuel) id node span := rfl
      rw [unfolded, withStatement] at ended
      cases found : setup.program.statement? id with
      | none => simp [found, stop, Outcome.state?] at ended
      | some located =>
          simp only [found] at ended
          exact statement_explained induction found ended

end Nested

end ScriptEngine
