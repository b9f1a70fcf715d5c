import ScriptEngine.Proofs.Abreast.Ahead
import ScriptEngine.Proofs.Control.Approximation
import ScriptEngine.Proofs.Hosting.Accounts
import ScriptEngine.Proofs.Hosting.Remnants

/-!
# Expressions without effects

An expression without calls and assignments leaves all that there was as it is: bindings,
stacks, output and the contents of every object.  It may only have cached literals that are
part of it.  Once its result is dropped, nothing else is left of it, and neither is anything
if it fails.  Evaluated again, it gives a value with the same contents or fails alike.
-/

namespace ScriptEngine

open Evaluation

/-! ## What is left -/

namespace State

/-- Every object that there was is there, apart from its counts as it was, and what is new in
the cache are literals that are part of an expression, each with the object that it stands
for. -/
structure Intact (program : Program) (root : ExpressionId) (before after : State) : Prop
    extends Aside before after where
  object : ∀ {address object}, before.heap.get? address = some object →
    ∃ later, after.heap.get? address = some later ∧ object.Alike later
  cached : ∀ {id address}, before.literal? id = none → after.literal? id = some address →
    program.Within root id ∧ ∃ literal span,
      program.expression? id = some ⟨.literal literal, span⟩ ∧
        after.heap.payload? address = some (.scalar (literal.scalar program.names)) ∧
        after.heap.type address = (literal.scalar program.names).type

variable {program : Program} {root : ExpressionId} {before after : State} {hand hand' : Hand}
  {depth : Nat}

theorem Caches.intact (caches : Caches program (program.Within root) before after)
    (held : Holding Ledger.Orderly depth hand before)
    (held' : Holding Ledger.Orderly depth hand' after) (part : hand.PartOf hand') :
    before.Intact program root after := by
  refine ⟨caches.toAside, ?_, ?_⟩
  · intro address object past
    have old := Heap.lt_size_of_get?_eq_some past
    obtain ⟨later, present⟩ :=
      caches.toUndisturbed.alive_of_alive held.1 held'.1.balanced part past
    obtain ⟨earlier, past', alike⟩ := caches.heap.object old present
    cases past.symm.trans past'
    exact ⟨later, present, alike⟩
  · intro id address missing kept
    obtain ⟨within, _, literal, span, found, stands⟩ := caches.cached missing kept
    obtain ⟨payload, alive⟩ := Option.ne_none_iff_exists'.mp (held'.literal_present kept)
    obtain ⟨rfl, type⟩ := stands alive
    exact ⟨within, literal, span, found, alive, type⟩

end State

/-! ## Evaluations -/

namespace Nested

variable {setup : Setup} {id : ExpressionId} {depth fuel : Nat} {hand : Hand}
  {state last : State} {result : Address}

theorem holding_of_value (quiet : setup.program.Quiet id)
    (held : Holding Ledger.Orderly depth hand state)
    (evaluated : (withFuel setup fuel).evaluate id state = .value result last) :
    Holding Ledger.Orderly depth (hand.own result) last := by
  have walked := (quiet_abreast setup fuel).evaluate quiet hand.twice state state (Linked.refl held)
  rw [evaluated] at walked
  cases walked with
  | value linked => simpa using linked.left

theorem holding_of_failure (quiet : setup.program.Quiet id)
    (held : Holding Ledger.Orderly depth hand state) {failure : Failure}
    (evaluated : (withFuel setup fuel).evaluate id state = .failure failure last) :
    Holding Ledger.Orderly depth hand last := by
  have walked := (quiet_abreast setup fuel).evaluate quiet hand.twice state state (Linked.refl held)
  rw [evaluated] at walked
  cases walked with
  | failure _ linked => simpa using linked.left

/-- The state once the result is dropped. -/
theorem holding_dropped (quiet : setup.program.Quiet id)
    (held : Holding Ledger.Orderly depth hand state)
    (evaluated : (withFuel setup fuel).evaluate id state = .value result last) :
    Holding Ledger.Orderly depth hand (last.releaseAll [result]) := by
  have owned := holding_of_value quiet held evaluated
  rw [← hand.ownAll_nil, ← Hand.ownAll_cons] at owned
  exact (Linked.stable depth).release owned

/-- If it fails, nothing is left of an expression but literals. -/
theorem unchanged_of_failure (quiet : setup.program.Quiet id)
    (held : Holding Ledger.Orderly depth hand state) {failure : Failure}
    (evaluated : (withFuel setup fuel).evaluate id state = .failure failure last) :
    state.Unchanged last :=
  ((gentle quiet fuel).1.of_failure evaluated).unchanged held.1
    (holding_of_failure quiet held evaluated).1

/-- Once its result is dropped, nothing is left of an expression but literals. -/
theorem unchanged_of_value (quiet : setup.program.Quiet id)
    (held : Holding Ledger.Orderly depth hand state)
    (evaluated : (withFuel setup fuel).evaluate id state = .value result last) :
    state.Unchanged (last.releaseAll [result]) :=
  (((gentle quiet fuel).1.of_value evaluated).trans (.releaseAll last [result])).unchanged held.1
    (holding_dropped quiet held evaluated).1

theorem intact (quiet : setup.program.Quiet id) (held : Holding Ledger.Orderly depth hand state)
    (ended : ((withFuel setup fuel).evaluate id state).state? = some last) :
    state.Intact setup.program id last := by
  have cached := (caches quiet fuel).1.of_state? ended
  cases evaluated : (withFuel setup fuel).evaluate id state with
  | value result after =>
      rw [evaluated] at ended
      cases ended
      exact cached.intact held (holding_of_value quiet held evaluated) ((Hand.PartOf.refl hand).own _)
  | failure failure after =>
      rw [evaluated] at ended
      cases ended
      exact cached.intact held (holding_of_failure quiet held evaluated) (.refl hand)
  | stopped reason =>
      rw [evaluated] at ended
      cases ended

/-! ## Evaluations one after the other -/

/-- An expression ends alike where it has been evaluated, whatever may be held besides. -/
theorem evaluate_again (quiet : setup.program.Quiet id) {among : ExpressionId → Prop}
    {aside : List Address} {next : State} (caches : state.Caches setup.program among next)
    (held : Holding Ledger.Orderly depth hand state)
    (held' : Holding Ledger.Orderly depth (hand.shareAll aside) next)
    (fuel : Nat) :
    Outcome.Abreast
      (fun result' result again last => again.heap.tree result' = last.heap.tree result)
      (fun _ _ => True) ((withFuel setup fuel).evaluate id next)
      ((withFuel setup fuel).evaluate id state) := by
  have walked := (quiet_ahead setup fuel).evaluate quiet _ next state (Linked.ahead caches held held')
  generalize (withFuel setup fuel).evaluate id next = another,
    (withFuel setup fuel).evaluate id state = one at walked ⊢
  cases walked with
  | value linked => exact .value (linked.tree_eq (Hands.has_own_iff.mpr (Or.inl rfl)))
  | failure failure _ => exact .failure failure trivial
  | stopped uninterrupted => exact .stopped uninterrupted

theorem evaluate_of_enough {enough more : Nat} (fewer : enough ≤ more)
    (ended : (withFuel setup enough).evaluate id state ≠ .stopped .outOfFuel) :
    (withFuel setup more).evaluate id state = (withFuel setup enough).evaluate id state :=
  (((withFuel_below fewer).operands.evaluate id state).resolve_right ended).symm

theorem again_of_failure (quiet : setup.program.Quiet id)
    (held : Holding Ledger.Orderly depth hand state) {failure : Failure}
    (evaluated : (withFuel setup fuel).evaluate id state = .failure failure last) {more : Nat}
    (fewer : fuel ≤ more) :
    ∃ again, (withFuel setup more).evaluate id last = .failure failure again := by
  have cached := (caches quiet fuel).1.of_failure evaluated
  have left := holding_of_failure quiet held evaluated
  rw [← hand.shareAll_nil] at left
  have walked := evaluate_again quiet cached held left more
  have enough : (withFuel setup more).evaluate id state = (withFuel setup fuel).evaluate id state :=
    evaluate_of_enough fewer (by simp [evaluated])
  rw [enough, evaluated] at walked
  generalize (withFuel setup more).evaluate id last = another at walked ⊢
  cases walked with
  | failure failure _ => exact ⟨_, rfl⟩

/-- The result may still be there, or be dropped. -/
theorem again_of_value (quiet : setup.program.Quiet id)
    (held : Holding Ledger.Orderly depth hand state)
    (evaluated : (withFuel setup fuel).evaluate id state = .value result last) {next : State}
    (among : next ∈ [last, last.releaseAll [result]]) {more : Nat} (fewer : fuel ≤ more) :
    ∃ result' again, (withFuel setup more).evaluate id next = .value result' again ∧
      again.heap.tree result' = last.heap.tree result := by
  have cached := (caches quiet fuel).1.of_value evaluated
  have walked : Outcome.Abreast
      (fun result' result again last => again.heap.tree result' = last.heap.tree result)
      (fun _ _ => True) ((withFuel setup more).evaluate id next)
      ((withFuel setup more).evaluate id state) := by
    rw [List.mem_pair] at among
    rcases among with rfl | rfl
    · have kept := (Linked.stable depth).lower (holding_of_value quiet held evaluated)
      rw [← hand.shareAll_nil, ← Hand.shareAll_cons] at kept
      exact evaluate_again quiet cached held kept more
    · have dropped := holding_dropped quiet held evaluated
      rw [← hand.shareAll_nil] at dropped
      exact evaluate_again quiet
        (State.Framing.trans cached (State.Framing.releaseAll last [result])) held dropped more
  have enough : (withFuel setup more).evaluate id state = (withFuel setup fuel).evaluate id state :=
    evaluate_of_enough fewer (by simp [evaluated])
  rw [enough, evaluated] at walked
  generalize (withFuel setup more).evaluate id next = another at walked ⊢
  cases walked with
  | value same => exact ⟨_, _, rfl, same⟩

end Nested

namespace Session

variable {session : Session} {program : Program} {builtins : BuiltinTable} {sink : Sink}
  {limit : Option Nat} {requests : List (Nat × Request)}

/-- At any moment of any request, the evaluation of an expression without calls and
assignments leaves all that there was as it is, and caches at most literals that are part of
it.  If it fails, or once its result is dropped, nothing else is left of it.  Evaluated again,
with the result or without it, the expression gives a value with the same contents, or the
same failure. -/
theorem Runs.quiet_is_pure (lawful : builtins.Lawful)
    (runs : Runs (start program builtins sink limit) requests session) {fuel : Nat}
    {request : Request} {moment : State} (visits : session.Visits fuel request moment)
    {id : ExpressionId} (quiet : program.Quiet id) (enough : Nat) :
    let evaluate more := (Nested.withFuel ⟨program, builtins⟩ more).evaluate id
    (∀ {last}, (evaluate enough moment).state? = some last → moment.Intact program id last) ∧
      (∀ {failure last}, evaluate enough moment = .failure failure last →
        moment.Unchanged last ∧
          ∀ more, enough ≤ more → ∃ again, evaluate more last = .failure failure again) ∧
      ∀ {result last}, evaluate enough moment = .value result last →
        moment.Unchanged (last.releaseAll [result]) ∧
          ∀ next ∈ [last, last.releaseAll [result]], ∀ more, enough ≤ more →
            ∃ result' again, evaluate more next = .value result' again ∧
              again.heap.tree result' = last.heap.tree result := by
  intro evaluate
  have upholds := runs.upholds Ledger.Orderly.hosted (by simp)
    (start_upholds lawful Ledger.Orderly.blank)
  obtain ⟨hand, ordered⟩ := upholds.visited Ledger.Orderly.hosted (by simp) visits
  have held : Holding Ledger.Orderly moment.calls.depth hand moment := ⟨ordered, rfl⟩
  have quiet' : Program.Quiet (Setup.mk program builtins).program id := quiet
  refine ⟨Nested.intact quiet' held, ?_, ?_⟩
  · intro failure last evaluated
    exact ⟨Nested.unchanged_of_failure quiet' held evaluated,
      fun more fewer => Nested.again_of_failure quiet' held evaluated fewer⟩
  · intro result last evaluated
    exact ⟨Nested.unchanged_of_value quiet' held evaluated,
      fun next among more fewer => Nested.again_of_value quiet' held evaluated among fewer⟩

/-- A variable, and the sum of it and a literal. -/
def adding : Program where
  expressions :=
    #[⟨.literal (.int 5), .empty⟩, ⟨.reference ⟨0⟩, .empty⟩, ⟨.literal (.int 7), .empty⟩,
      ⟨.arithmetic ⟨1⟩ [(.add, ⟨2⟩)], .empty⟩]
  statements := #[⟨.declare ⟨0⟩ (some ⟨0⟩), .empty⟩]

theorem adding_quiet : adding.Quiet ⟨3⟩ := by
  apply @Program.Quiet.of_operands _ _ (.arithmetic ⟨1⟩ [(.add, ⟨2⟩)]) .empty rfl (by simp) (by simp)
  simp only [Expression.operands, List.forall_mem_cons, List.map_cons, List.map_nil]
  refine ⟨?_, ?_, by simp⟩
  · exact @Program.Quiet.of_operands _ _ (.reference ⟨0⟩) .empty rfl (by simp) (by simp)
      (by simp [Expression.operands])
  · exact @Program.Quiet.of_operands _ _ (.literal (.int 7)) .empty rfl (by simp) (by simp)
      (by simp [Expression.operands])

theorem Runs.quiet_is_pure_adding :
    ∃ session result last result' again,
      Runs (start adding .standard .silent none) [(9, .execute ⟨0⟩)] session ∧
      session.Visits 9 (.execute ⟨0⟩) session.state ∧
      (Nested.withFuel ⟨adding, .standard⟩ 9).evaluate ⟨3⟩ session.state = .value result last ∧
      last.heap.render true result = "12" ∧ session.state.literal? ⟨2⟩ = none ∧
      last.literal? ⟨2⟩ ≠ none ∧ session.state.Intact adding ⟨3⟩ last ∧
      session.state.Unchanged (last.releaseAll [result]) ∧
      (Nested.withFuel ⟨adding, .standard⟩ 9).evaluate ⟨3⟩ (last.releaseAll [result]) =
        .value result' again ∧
      again.heap.tree result' = last.heap.tree result := by
  have ran : ((start adding .standard .silent none).step 9 (.execute ⟨0⟩)).toOption.any
      (fun declared => declared.2.state.literal? ⟨2⟩ = none &&
        match (Nested.withFuel ⟨adding, .standard⟩ 9).evaluate ⟨3⟩ declared.2.state with
        | .value result last => last.heap.render true result = "12" && last.literal? ⟨2⟩ ≠ none
        | _ => false) = true := by decide +kernel
  obtain ⟨_, session, declared, ran⟩ := exists_step_of_any ran
  have runs := Runs.cons declared (.nil session)
  have visits := session.visits_start 8 ⟨0⟩
  obtain ⟨missing, added⟩ := (Bool.and_eq_true _ _).mp ran
  obtain ⟨intact, _, pure⟩ :=
    Runs.quiet_is_pure BuiltinTable.standard_lawful runs visits adding_quiet 9
  cases evaluated : (Nested.withFuel ⟨adding, .standard⟩ 9).evaluate ⟨3⟩ session.state with
  | failure _ _ => simp [evaluated] at added
  | stopped _ => simp [evaluated] at added
  | value result last =>
      simp only [evaluated, Bool.and_eq_true, decide_eq_true_eq] at added
      obtain ⟨unchanged, again⟩ := pure evaluated
      obtain ⟨result', after, repeated, same⟩ := again (last.releaseAll [result]) (by simp) 9 le_rfl
      exact ⟨session, result, last, result', after, runs, visits, evaluated, added.1,
        of_decide_eq_true missing, added.2, intact (by simp [evaluated, Outcome.state?]), unchanged,
        repeated, same⟩

end Session

end ScriptEngine
