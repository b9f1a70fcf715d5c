import ScriptEngine.Proofs.Abreast.Indexing
import ScriptEngine.Proofs.Control.Approximation
import ScriptEngine.Proofs.Hosting.Accounts

/-!
# Indexed reads without copies

An indexed read walks stored data and copies what it comes to.  At any moment of any
request it agrees with a read that copies the base first, and the copy that it gives is
apart from all that there was.
-/

namespace ScriptEngine

open Evaluation

namespace Outcome.Akin

variable {α β : Type} {after last : α → α → State → State → Prop} {first : Evaluation α}
  {next : α → Evaluation α} {another : Outcome α} {state : State}

theorem stopped_iff {one : Outcome α} (akin : Akin after one another) (reason : Stop) :
    one = .stopped reason ↔ another = .stopped reason := by
  cases akin with
  | value held => simp
  | failure same => simp
  | stopped reason => exact Iff.rfl

/-- One evaluation does more than the other once it has a value. -/
theorem extend (akin : Akin after (first state) another)
    (rest : ∀ {result result' middle middle'}, after result result' middle middle' →
      ∃ result'' ended, next result middle = .value result'' ended ∧
        last result'' result' ended middle') : Akin last ((first >>= next) state) another := by
  rw [bind_run]
  generalize first state = one at akin ⊢
  cases akin with
  | value held =>
      obtain ⟨result, ended, same, held⟩ := rest held
      simp only [same]
      exact .value held
  | failure same => exact .failure same
  | stopped reason => exact .stopped reason

end Outcome.Akin

/-! ## Two ways to read -/

/-- A copy in the place of a shared handle reads alike, and leads to nothing that there
was. -/
theorem Holding.copyBack {depth : Nat} {hand : Hand} {state : State} {element : Address}
    (held : Holding Ledger.Orderly depth (hand.share element) state) :
    ((state.heap.copy element).2.releaseAll [element]).tree (state.heap.copy element).1 =
        state.heap.tree element ∧
      ∀ {owner address}, owner < state.heap.cells.size →
        ((state.heap.copy element).2.releaseAll [element]).Reaches {owner} address →
          ¬ ((state.heap.copy element).2.releaseAll [element]).Reaches
            {(state.heap.copy element).1} address := by
  have stable := Linked.stable depth
  have made := stable.create (Heap.Fashioned.copy state.heap element).makes held
  rw [← Hand.share_own, ← (Hand.own _ hand).shareAll_nil, ← Hand.shareAll_cons] at made
  have last := stable.giveBack made
  have remains := Heap.Remains.releaseAll (state.heap.copy element).2 [element]
  have present := last.present (Or.inl (Multiset.mem_cons_self _ _))
  constructor
  · rw [remains.survives.tree (held.sound.build _) last.sound (remains.present present) present]
    exact (held.sound.tree_build _).1
  · intro owner address old reaches reaches'
    have young := ((Heap.Crafted.copy state.heap element).young.remains remains fun _ => id).reaches
      (Multiset.mem_singleton_self _) reaches'
    have older : address < state.heap.cells.size := by
      clear young reaches'
      induction reaches with
      | root member => rwa [Multiset.mem_singleton.mp member]
      | @slot holder child _ holds induction =>
          obtain ⟨payload, found, member⟩ := holds
          have before := (Heap.Survives.build state.heap _).payload induction
            (remains.payload found)
          obtain ⟨content, living⟩ := Option.ne_none_iff_exists'.mp
            (held.sound.balanced.closed ⟨payload, before, member⟩)
          exact Heap.lt_size_of_payload? living
    exact Nat.lt_irrefl _ (older.trans_le young)

variable {setup : Setup} {operands operands' : Operands} {id base : ExpressionId}
  {indices : List ExpressionId} {container : Address} {state : State}

/-- A run with less fuel reads with no other keys. -/
theorem Evaluation.ProperKeys.of_below
    (below : ∀ id, (operands.evaluate id).Below .outOfFuel (operands'.evaluate id))
    (proper : ProperKeys operands' indices container state) :
    ProperKeys operands indices container state := by
  induction indices generalizing container state with
  | nil => trivial
  | cons index others induction =>
      intro key middle evaluated
      rcases below index state with same | stopped
      · obtain ⟨clean, rest⟩ := proper (same ▸ evaluated)
        exact ⟨clean, fun read => induction (rest read)⟩
      · simp [evaluated] at stopped

/-- Whether all keys that are read with are seen to have no NaN in them. -/
def Evaluation.properKeys (operands : Operands) : List ExpressionId → Address → State → Bool
  | [], _, _ => true
  | index :: others, container, state =>
      match operands.evaluate index state with
      | .value key middle =>
          !(middle.heap.tree key).hasNan &&
            match readElement container key middle with
            | .value element after => properKeys operands others element after
            | .failure _ _ => true
            | .stopped _ => true
      | .failure _ _ => true
      | .stopped _ => false

/-- What is seen with some fuel holds with more. -/
theorem Evaluation.ProperKeys.of_check
    (below : ∀ id, (operands.evaluate id).Below .outOfFuel (operands'.evaluate id))
    (checked : properKeys operands indices container state = true) :
    ProperKeys operands' indices container state := by
  induction indices generalizing container state with
  | nil => trivial
  | cons index others induction =>
      intro key middle evaluated
      rw [properKeys] at checked
      rcases below index state with same | stopped
      · rw [same, evaluated, Bool.and_eq_true] at checked
        obtain ⟨clean, rest⟩ := checked
        refine ⟨by simpa using clean, ?_⟩
        intro element after read
        rw [read] at rest
        exact induction rest
      · simp [stopped] at checked

/-- It suffices to look at one run that has enough fuel. -/
theorem Nested.proper_of_check {fuel : Nat}
    (checked : (match (withFuel setup fuel).share base state with
      | .value container middle =>
          properKeys (withFuel setup fuel).toOperands indices container middle
      | .failure _ _ => true
      | .stopped _ => false) = true) (more : Nat) {middle : State}
    (shared : (withFuel setup more).share base state = .value container middle) :
    ProperKeys (withFuel setup more).toOperands indices container middle := by
  rcases le_total fuel more with fewer | fewer
  · rcases (withFuel_below fewer).operands.share base state with same | stopped
    · rw [same, shared] at checked
      exact .of_check (withFuel_below fewer).operands.evaluate checked
    · simp [stopped] at checked
  · rcases (withFuel_below fewer).operands.share base state with same | stopped
    · rw [← same, shared] at checked
      exact (ProperKeys.of_check (fun _ => .refl _) checked).of_below
        (withFuel_below fewer).operands.evaluate
    · simp [shared] at stopped

/-- Both ways to read, of which one may need one level of fuel more. -/
theorem Nested.index_akin {depth : Nat} {hand : Hand} {span : Span}
    (found : setup.program.expression? id = some ⟨.index base indices, span⟩)
    (quiet : setup.program.Quiet id) (held : Holding Ledger.Orderly depth hand state)
    (proper : ∀ more {container middle},
      (withFuel setup more).share base state = .value container middle →
        ProperKeys (withFuel setup more).toOperands indices container middle) (fuel : Nat) :
    ∃ walked : Outcome Address,
      Outcome.Akin (fun element copied after after' =>
          after.heap.tree element = after'.heap.tree copied) walked
        (indexCopy setup (withFuel setup fuel).toOperands base indices state) ∧
      ((withFuel setup (fuel + 1)).evaluate id state = walked ∨
        (withFuel setup (fuel + 1)).evaluate id state = .stopped .outOfFuel) ∧
      (walked = (withFuel setup (fuel + 1 + 1)).evaluate id state ∨
        walked = .stopped .outOfFuel) := by
  obtain ⟨more, enough, few, shared⟩ := share_paired (quiet.operand found List.mem_cons_self) fuel
    (Linked.refl held)
  let walk (first second : Nat) : Evaluation Address :=
    ((withFuel setup first).share base >>= fun container =>
      indexChain setup (withFuel setup second).toOperands container indices) >>= fun element =>
        holding [element] (copy element)
  have walks : ∀ {first more second less : Nat}, first ≤ more → second ≤ less →
      (walk first second).Below .outOfFuel (walk more less) := by
    intro first more second less fewer fewer'
    apply Below.bind
    · apply Below.bind ((withFuel_below fewer).operands.share base)
      exact fun container _ => (withFuel_below fewer').operands.indexChain indices container
    · exact fun element _ => .refl _
  have quick : ∀ fuel, (withFuel setup (fuel + 1)).evaluate id = walk fuel fuel :=
    fun fuel => evaluate_eq found fuel
  refine ⟨walk more fuel state, ?_, ?_, ?_⟩
  · have walked : Outcome.Akin (fun element copied => Paired depth hand.twice (element, copied))
        (((withFuel setup more).share base >>= fun container =>
          indexChain setup (withFuel setup fuel).toOperands container indices) state)
        (indexCopy setup (withFuel setup fuel).toOperands base indices state) := by
      apply shared.bind
      intro container copied middle middle' one _ paired
      apply paired.follow (quiet_abreast setup fuel) (fun quiet => (gentle quiet fuel).1)
      · exact fun index member => quiet.operand found (List.mem_cons_of_mem _ member)
      · exact (proper more one).of_below (withFuel_below enough).operands.evaluate
    apply walked.extend
    intro element copied middle middle' paired
    have shared := paired.linked.left
    rw [Hands.left_putAside] at shared
    exact ⟨_, _, rfl, shared.copyBack.1.trans paired.same⟩
  · rw [quick]
    exact walks enough le_rfl state
  · rw [quick]
    exact walks few (Nat.le_succ fuel) state

/-- Both ways to read agree, with whatever fuel they have enough of. -/
theorem Nested.index_agrees {depth : Nat} {hand : Hand} {span : Span}
    (found : setup.program.expression? id = some ⟨.index base indices, span⟩)
    (quiet : setup.program.Quiet id) (held : Holding Ledger.Orderly depth hand state)
    (proper : ∀ more {container middle},
      (withFuel setup more).share base state = .value container middle →
        ProperKeys (withFuel setup more).toOperands indices container middle) :
    ((∃ fuel, (withFuel setup fuel).evaluate id state ≠ .stopped .outOfFuel) ↔
        ∃ fuel, indexCopy setup (withFuel setup fuel).toOperands base indices state ≠
          .stopped .outOfFuel) ∧
      ∀ fuel less, (withFuel setup fuel).evaluate id state ≠ .stopped .outOfFuel →
        indexCopy setup (withFuel setup less).toOperands base indices state ≠ .stopped .outOfFuel →
          Outcome.Akin (fun element copied after after' =>
              after.heap.tree element = after'.heap.tree copied)
            ((withFuel setup fuel).evaluate id state)
            (indexCopy setup (withFuel setup less).toOperands base indices state) := by
  have ends : ∀ fuel, (withFuel setup fuel).evaluate id state ≠ .stopped .outOfFuel →
      ∃ fewer, fuel = fewer + 1 := by
    intro fuel ended
    cases fuel with
    | zero => exact absurd rfl ended
    | succ fewer => exact ⟨fewer, rfl⟩
  refine ⟨⟨?_, ?_⟩, ?_⟩
  · rintro ⟨fuel, ended⟩
    obtain ⟨fuel, rfl⟩ := ends fuel ended
    obtain ⟨walked, akin, same, _⟩ := index_akin found quiet held proper fuel
    rw [same.resolve_right ended] at ended
    exact ⟨fuel, fun stopped => ended ((akin.stopped_iff _).mpr stopped)⟩
  · rintro ⟨fuel, ended⟩
    obtain ⟨walked, akin, _, same⟩ := index_akin found quiet held proper fuel
    have going : walked ≠ .stopped .outOfFuel :=
      fun stopped => ended ((akin.stopped_iff _).mp stopped)
    rw [same.resolve_right going] at going
    exact ⟨fuel + 1 + 1, going⟩
  · intro fuel less ended ended'
    obtain ⟨fuel, rfl⟩ := ends fuel ended
    obtain ⟨walked, akin, same, _⟩ := index_akin found quiet held proper (max fuel less)
    have quick := ((withFuel_below (Nat.succ_le_succ (le_max_left fuel less))).operands.evaluate id
      state).resolve_right ended
    have copied : (indexCopy setup (withFuel setup less).toOperands base indices).Below .outOfFuel
        (indexCopy setup (withFuel setup (max fuel less)).toOperands base indices) := by
      have below := (@withFuel_below setup _ _ (le_max_right fuel less)).operands
      exact Below.bind (below.evaluate base) fun container _ => below.indexChain indices container
    rw [quick, same.resolve_right (quick ▸ ended), (copied state).resolve_right ended']
    exact akin

/-- The copy that an indexed read gives is apart from what there was, and from literals. -/
theorem Nested.index_apart {depth : Nat} {hand : Hand} {span : Span}
    (found : setup.program.expression? id = some ⟨.index base indices, span⟩)
    (quiet : setup.program.Quiet id) (held : Holding Ledger.Orderly depth hand state) {fuel : Nat}
    {element : Address} {last : State}
    (read : (withFuel setup fuel).evaluate id state = .value element last) {owner address : Address}
    (old : owner < state.heap.cells.size ∨ ∃ literal, last.literal? literal = some owner)
    (reaches : last.heap.Reaches {owner} address) : ¬ last.heap.Reaches {element} address := by
  cases fuel with
  | zero => simp [withFuel, exhausted, stop] at read
  | succ fuel =>
      have inside : ∀ operand ∈ base :: indices, setup.program.Quiet operand :=
        fun operand member => quiet.operand found member
      have walked := @shareIndexed_abreast _ _ _ setup _ _ _ (quiet_abreast setup fuel) base indices
        inside state state (Linked.refl held)
      have gentle := @Respects.shareIndexed State.Undisturbed _ setup (withFuel setup fuel).toOperands
        base indices
        fun operand member => Nested.gentle (inside operand member) fuel
      rw [evaluate_eq found] at read
      change (shareIndexed setup (withFuel setup fuel).toOperands base indices >>= fun element =>
        holding [element] (copy element)) state = .value element last at read
      rw [bind_run] at read
      generalize outcome : shareIndexed setup (withFuel setup fuel).toOperands base indices state =
        ended at walked read
      cases walked with
      | @value shared _ middle _ linked =>
          cases read
          have kept := linked.left
          rw [Hands.left_share] at kept
          apply kept.copyBack.2 _ reaches
          rcases old with old | ⟨literal, cached⟩
          · exact old.trans_le (gentle.of_value outcome).size
          · obtain ⟨payload, living⟩ := Option.ne_none_iff_exists'.mp (kept.literal_present cached)
            exact Heap.lt_size_of_payload? living
      | failure failure _ => cases read
      | stopped _ => cases read

namespace Session

variable {session : Session} {program : Program} {builtins : BuiltinTable} {sink : Sink}
  {limit : Option Nat} {requests : List (Nat × Request)}

/-- At any moment of any request, an indexed read whose base and indices have no call and no
assignment in them gives what one gives that copies the base first and then follows the keys,
or fails for the same cause, if no key that it reads with has a NaN in it.  It disturbs
nothing, and what it gives shares nothing with what there was, nor with any literal. -/
theorem Runs.index_reads_agree (lawful : builtins.Lawful)
    (runs : Runs (start program builtins sink limit) requests session) {fuel : Nat}
    {request : Request} {moment : State} (visits : session.Visits fuel request moment)
    {id base : ExpressionId} {indices : List ExpressionId} {span : Span}
    (found : program.expression? id = some ⟨.index base indices, span⟩) (quiet : program.Quiet id)
    (proper : ∀ more {container middle},
      (Nested.withFuel ⟨program, builtins⟩ more).share base moment = .value container middle →
        ProperKeys (Nested.withFuel ⟨program, builtins⟩ more).toOperands indices container middle) :
    let quick more := (Nested.withFuel ⟨program, builtins⟩ more).evaluate id moment
    let plain more := indexCopy ⟨program, builtins⟩
      (Nested.withFuel ⟨program, builtins⟩ more).toOperands base indices moment
    ((∃ more, quick more ≠ .stopped .outOfFuel) ↔ ∃ more, plain more ≠ .stopped .outOfFuel) ∧
      (∀ more less, quick more ≠ .stopped .outOfFuel → plain less ≠ .stopped .outOfFuel →
        Outcome.Akin (fun element copied after after' =>
          after.heap.tree element = after'.heap.tree copied) (quick more) (plain less)) ∧
      ∀ more, (∀ last, (quick more).state? = some last → moment.Undisturbed last) ∧
        ∀ {element last owner address}, quick more = .value element last →
          (owner < moment.heap.cells.size ∨ ∃ literal, last.literal? literal = some owner) →
            last.heap.Reaches {owner} address → ¬ last.heap.Reaches {element} address := by
  have upholds := runs.upholds Ledger.Orderly.hosted (by simp)
    (start_upholds lawful Ledger.Orderly.blank)
  obtain ⟨hand, ordered⟩ := upholds.visited Ledger.Orderly.hosted (by simp) visits
  have held : Holding Ledger.Orderly moment.calls.depth hand moment := ⟨ordered, rfl⟩
  obtain ⟨ends, agree⟩ := @Nested.index_agrees ⟨program, builtins⟩ _ _ _ _ _ _ _ found quiet held
    proper
  refine ⟨ends, agree, fun more => ⟨?_, ?_⟩⟩
  · intro last ended
    exact (@Nested.gentle ⟨program, builtins⟩ id quiet more).1.of_state? ended
  · intro element last owner address read old reaches
    exact @Nested.index_apart ⟨program, builtins⟩ _ _ _ _ _ _ _ found quiet held _ _ _ read _ _ old
      reaches

/-- A variable that a call makes a vector of vectors, and an element of an element of it. -/
def nesting : Program where
  expressions :=
    #[⟨.literal (.int 0), .empty⟩, ⟨.literal (.int 1), .empty⟩, ⟨.reference ⟨0⟩, .empty⟩,
      ⟨.reference ⟨1⟩, .empty⟩, ⟨.assign ⟨2⟩ ⟨3⟩, .empty⟩, ⟨.index ⟨2⟩ [⟨0⟩, ⟨1⟩], .empty⟩]
  statements := #[⟨.declare ⟨0⟩ (some ⟨0⟩), .empty⟩, ⟨.expression ⟨4⟩, .empty⟩]
  functions :=
    #[⟨.empty, [⟨⟨1⟩, .vector (.vector .int)⟩], .none, ⟨[⟨1⟩], .empty⟩, .empty⟩]

theorem nesting_quiet : nesting.Quiet ⟨5⟩ := by
  apply @Program.Quiet.of_operands _ _ (.index ⟨2⟩ [⟨0⟩, ⟨1⟩]) .empty rfl (by simp) (by simp)
  simp only [Expression.operands, List.forall_mem_cons]
  refine ⟨?_, ?_, ?_, by simp⟩
  · exact @Program.Quiet.of_operands _ _ (.reference ⟨0⟩) .empty rfl (by simp) (by simp)
      (by simp [Expression.operands])
  · exact @Program.Quiet.of_operands _ _ (.literal (.int 0)) .empty rfl (by simp) (by simp)
      (by simp [Expression.operands])
  · exact @Program.Quiet.of_operands _ _ (.literal (.int 1)) .empty rfl (by simp) (by simp)
      (by simp [Expression.operands])

theorem Runs.index_reads_agree_nesting :
    ∃ session element last copied after,
      Runs (start nesting .standard .silent none)
        [(9, .execute ⟨0⟩), (9, .call ⟨0⟩ [.vector (.vector .int)
          [.vector .int [.scalar (.int 1), .scalar (.int 2)]]] none)] session ∧
      session.Visits 9 (.execute ⟨0⟩) session.state ∧
      (Nested.withFuel ⟨nesting, .standard⟩ 9).evaluate ⟨5⟩ session.state = .value element last ∧
      indexCopy ⟨nesting, .standard⟩ (Nested.withFuel ⟨nesting, .standard⟩ 9).toOperands ⟨2⟩
        [⟨0⟩, ⟨1⟩] session.state = .value copied after ∧
      last.heap.render true element = "2" ∧ last.heap.tree element = after.heap.tree copied ∧
      session.state.Undisturbed last := by
  have ran : ((start nesting .standard .silent none).step 9 (.execute ⟨0⟩)).toOption.any
      (fun declared => (declared.2.step 9 (.call ⟨0⟩ [.vector (.vector .int)
        [.vector .int [.scalar (.int 1), .scalar (.int 2)]]] none)).toOption.any fun called =>
          let nested := Nested.withFuel ⟨nesting, .standard⟩ 9
          (match nested.share ⟨2⟩ called.2.state with
          | .value container middle =>
              properKeys nested.toOperands [⟨0⟩, ⟨1⟩] container middle
          | .failure _ _ => true
          | .stopped _ => false) &&
            match nested.evaluate ⟨5⟩ called.2.state,
              indexCopy ⟨nesting, .standard⟩ nested.toOperands ⟨2⟩ [⟨0⟩, ⟨1⟩] called.2.state with
            | .value element last, .value _ _ => last.heap.render true element = "2"
            | _, _ => false) = true := by decide +kernel
  obtain ⟨_, first, declared, ran⟩ := exists_step_of_any ran
  obtain ⟨_, session, called, ran⟩ := exists_step_of_any ran
  have runs := Runs.cons declared (.cons called (.nil session))
  have visits := session.visits_start 8 ⟨0⟩
  obtain ⟨checked, read⟩ := (Bool.and_eq_true _ _).mp ran
  obtain ⟨_, agree, quick⟩ := Runs.index_reads_agree BuiltinTable.standard_lawful runs visits rfl
    nesting_quiet fun more _ _ =>
      @Nested.proper_of_check ⟨nesting, .standard⟩ _ _ _ _ _ checked more _
  cases evaluated : (Nested.withFuel ⟨nesting, .standard⟩ 9).evaluate ⟨5⟩ session.state with
  | failure _ _ => simp [evaluated] at read
  | stopped _ => simp [evaluated] at read
  | value element last =>
      cases indexed : indexCopy ⟨nesting, .standard⟩
          (Nested.withFuel ⟨nesting, .standard⟩ 9).toOperands ⟨2⟩ [⟨0⟩, ⟨1⟩] session.state with
      | failure _ _ => simp [evaluated, indexed] at read
      | stopped _ => simp [evaluated, indexed] at read
      | value copied after =>
          simp only [evaluated, indexed, decide_eq_true_eq] at read
          have akin := agree 9 9 (by simp [evaluated]) (by simp [indexed])
          simp only [evaluated, indexed] at akin
          cases akin with
          | value same =>
              exact ⟨session, element, last, copied, after, runs, visits, evaluated, indexed, read,
                same, (quick 9).1 last (congrArg Outcome.state? evaluated)⟩

end Session

end ScriptEngine
