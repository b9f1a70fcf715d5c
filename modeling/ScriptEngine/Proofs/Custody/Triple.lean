import ScriptEngine.Interpreter.Run
import ScriptEngine.Proofs.Accounting.Ledger

/-!
# Triples

A triple says what holds after an evaluation, whether it gives a value or
fails, if something held before it.  Assertions are about a state together
with the handles at hand; they are stable when every step of a ledger that
leaves the control flow alone keeps them.
-/

namespace ScriptEngine

/-! ## Ledgers of states -/

/-- The results that calls keep. -/
def Calls.results (calls : Calls) : Multiset Address :=
  calls.frames.toList.filterMap (·.result)

/-- Which frames skip the rest of their statements. -/
def Scopes.skips (scopes : Scopes) : List Bool :=
  scopes.frames.map (·.skipsRest)

namespace State

def ledger (state : State) (hand : Hand) : Ledger where
  toHand := hand
  heap := state.heap
  scopes := state.scopes
  results := state.calls.results
  literals := state.literals.toList.reduceOption
  limit := state.calls.limit

theorem releaseAll_eq (state : State) (addresses : List Address) :
    state.releaseAll addresses = { state with heap := state.heap.releaseAll addresses } := rfl

/-- Nothing that control flow depends on is different. -/
structure SameControl (before after : State) : Prop where
  calls : after.calls = before.calls
  loops : after.loops = before.loops
  skips : after.scopes.skips = before.scopes.skips

theorem SameControl.refl (state : State) : state.SameControl state :=
  ⟨rfl, rfl, rfl⟩

theorem SameControl.trans {first second third : State} (left : first.SameControl second)
    (right : second.SameControl third) : first.SameControl third :=
  ⟨right.calls.trans left.calls, right.loops.trans left.loops, right.skips.trans left.skips⟩

end State

/-! ## Triples and their rules -/

namespace Evaluation

variable {α β : Type}

theorem bind_run (action : Evaluation α) (next : α → Evaluation β) (state : State) :
    (action >>= next) state =
      match action state with
      | .value result state => next result state
      | .failure failure state => .failure failure state
      | .stopped reason => .stopped reason :=
  rfl

/-- An evaluation that starts where `before` holds ends where `after` or
`failed` holds, and no observer interrupts it. -/
def Triple (before : State → Prop) (body : Evaluation α) (after : α → State → Prop)
    (failed : State → Prop) : Prop :=
  ∀ state, before state →
    match body state with
    | .value result state => after result state
    | .failure _ state => failed state
    | .stopped reason => reason ≠ .interrupted

namespace Triple

variable {before failed : State → Prop} {after : α → State → Prop} {body : Evaluation α}

theorem of_value {state last : State} {result : α} (triple : Triple before body after failed)
    (holds : before state) (ended : body state = .value result last) : after result last := by
  have held := triple state holds
  rw [ended] at held
  exact held

theorem of_failure {state last : State} {failure : Failure}
    (triple : Triple before body after failed) (holds : before state)
    (ended : body state = .failure failure last) : failed last := by
  have held := triple state holds
  rw [ended] at held
  exact held

theorem uninterrupted {state : State} (triple : Triple before body after failed)
    (holds : before state) : body state ≠ .stopped .interrupted := by
  intro interrupted
  have ended := triple state holds
  rw [interrupted] at ended
  exact ended rfl

theorem pure {result : α} (holds : ∀ state, before state → after result state) :
    Triple before (Pure.pure result) after failed :=
  holds

theorem fail {cause : Cause} (holds : ∀ state, before state → failed state) :
    Triple before (Evaluation.fail cause) after failed :=
  holds

theorem stop {reason : Stop} (uninterrupted : reason ≠ .interrupted) :
    Triple before (Evaluation.stop reason) after failed :=
  fun _ _ => uninterrupted

theorem bind {middle : α → State → Prop} {last : β → State → Prop}
    {continuation : α → Evaluation β} (first : Triple before body middle failed)
    (next : ∀ result, Triple (middle result) (continuation result) last failed) :
    Triple before (body >>= continuation) last failed := by
  intro state holds
  have ended := first state holds
  rw [bind_run]
  cases outcome : body state with
  | value result state =>
      rw [outcome] at ended
      exact next result state ended
  | failure failure state =>
      rw [outcome] at ended
      exact ended
  | stopped reason =>
      rw [outcome] at ended
      exact ended

/-- What is given up does not matter. -/
theorem void (triple : Triple before body after failed) :
    Triple before (body >>= fun _ => Pure.pure ()) (fun _ state => ∃ result, after result state)
      failed :=
  bind triple fun result => pure fun _ ended => ⟨result, ended⟩

theorem weaken {stronger : State → Prop} {narrower : α → State → Prop}
    {rarer : State → Prop} (triple : Triple before body narrower rarer)
    (starts : ∀ state, stronger state → before state)
    (ends : ∀ result state, narrower result state → after result state)
    (fails : ∀ state, rarer state → failed state) :
    Triple stronger body after failed := by
  intro state holds
  have ended := triple state (starts state holds)
  cases outcome : body state with
  | value result state =>
      rw [outcome] at ended
      exact ends result state ended
  | failure failure state =>
      rw [outcome] at ended
      exact fails state ended
  | stopped reason =>
      rw [outcome] at ended
      exact ended

theorem located {span : Span} (triple : Triple before body after failed) :
    Triple before (Evaluation.located span body) after failed := by
  intro state holds
  have ended := triple state holds
  unfold Evaluation.located
  cases outcome : body state with
  | value result state =>
      rw [outcome] at ended
      exact ended
  | failure failure state =>
      rw [outcome] at ended
      exact ended
  | stopped reason =>
      rw [outcome] at ended
      exact ended

theorem ensuring {change : State → State}
    (triple : Triple before body (fun result state => after result (change state))
      (fun state => failed (change state))) :
    Triple before (Evaluation.ensuring body change) after failed := by
  intro state holds
  have ended := triple state holds
  unfold Evaluation.ensuring
  cases outcome : body state with
  | value result state =>
      rw [outcome] at ended
      exact ended
  | failure failure state =>
      rw [outcome] at ended
      exact ended
  | stopped reason =>
      rw [outcome] at ended
      exact ended

theorem guarding {addresses : List Address}
    (triple : Triple before body after (fun state => failed (state.releaseAll addresses))) :
    Triple before (Evaluation.guarding addresses body) after failed := by
  intro state holds
  have ended := triple state holds
  unfold Evaluation.guarding
  cases outcome : body state with
  | value result state =>
      rw [outcome] at ended
      exact ended
  | failure failure state =>
      rw [outcome] at ended
      exact ended
  | stopped reason =>
      rw [outcome] at ended
      exact ended

theorem read {view : State → α} :
    Triple before (Evaluation.read view) (fun result state => before state ∧ result = view state)
      failed :=
  fun _ holds => ⟨holds, rfl⟩

/-- Nothing need be known about what was read. -/
theorem glance {view : State → α} :
    Triple before (Evaluation.read view) (fun _ => before) failed :=
  fun _ holds => holds

theorem ofExcept {result : Except Cause α} (fails : ∀ state, before state → failed state) :
    Triple before (Evaluation.ofExcept result)
      (fun value state => before state ∧ result = .ok value) failed := by
  intro state holds
  cases result with
  | ok value => exact ⟨holds, rfl⟩
  | error cause => exact fails state holds

theorem ofExcept_glance {result : Except Cause α}
    (fails : ∀ state, before state → failed state) :
    Triple before (Evaluation.ofExcept result) (fun _ => before) failed :=
  (ofExcept fails).weaken (fun _ holds => holds) (fun _ _ ended => ended.1) fun _ failing => failing

end Triple

end Evaluation

/-! ## Stable assertions -/

abbrev Assertion := Hand → State → Prop

/-- Kept by every step that leaves the control flow alone. -/
structure Assertion.Stable (licence : Licence) (holds : Assertion) : Prop where
  step : ∀ {hand hand' : Hand} {state state' : State}, holds hand state →
    Ledger.Step licence (state.ledger hand) (state'.ledger hand') → state.SameControl state' →
      holds hand' state'

namespace Assertion.Stable

variable {licence : Licence} {holds : Assertion} {hand : Hand} {state : State}

/-- The steps on the heap alone. -/
theorem onHeap (stable : Stable licence holds) {heap : Heap} {hand' : Hand}
    (kept : holds hand state)
    (step : Ledger.Step licence (state.ledger hand)
      { state.ledger hand with heap := heap, toHand := hand' }) :
    holds hand' { state with heap := heap } :=
  stable.step kept step ⟨rfl, rfl, rfl⟩

theorem craft (stable : Stable licence holds) {heap : Heap} {given made : Multiset Address}
    (makes : Heap.Makes licence.careless state.heap given heap made)
    (kept : holds { hand with owned := given + hand.owned } state) :
    holds { hand with owned := made + hand.owned } { state with heap := heap } :=
  stable.onHeap kept (.craft makes rfl)

/-- New values that take nothing over. -/
theorem gain (stable : Stable licence holds) {heap : Heap} {made : Multiset Address}
    (makes : Heap.Makes licence.careless state.heap 0 heap made) (kept : holds hand state) :
    holds { hand with owned := made + hand.owned } { state with heap := heap } :=
  stable.onHeap kept (.craft makes (zero_add hand.owned).symm)

theorem create (stable : Stable licence holds) {heap : Heap} {address : Address}
    (makes : Heap.Makes licence.careless state.heap 0 heap {address}) (kept : holds hand state) :
    holds (hand.own address) { state with heap := heap } := by
  have made := stable.gain makes kept
  rw [Multiset.singleton_add] at made
  exact made

/-- What leaves no new handle behind, printing included. -/
theorem settle (stable : Stable licence holds) {heap : Heap} (output : Output)
    (makes : Heap.Makes licence.careless state.heap 0 heap 0) (kept : holds hand state) :
    holds hand { state with heap := heap, output := output } := by
  have step : Ledger.Step licence (state.ledger hand)
      { state.ledger hand with heap := heap, owned := 0 + hand.owned } :=
    .craft makes (zero_add hand.owned).symm
  rw [zero_add] at step
  exact stable.step kept step ⟨rfl, rfl, rfl⟩

theorem release (stable : Stable licence holds) {addresses : List Address}
    (kept : holds (hand.ownAll addresses) state) :
    holds hand (state.releaseAll addresses) := by
  have released := stable.craft (Heap.Fashioned.releaseAll state.heap addresses).makes kept
  rw [zero_add] at released
  exact released

theorem releaseOne (stable : Stable licence holds) {address : Address}
    (kept : holds (hand.own address) state) :
    holds hand { state with heap := state.heap.release address } := by
  rw [← hand.ownAll_nil, ← Hand.ownAll_cons] at kept
  exact stable.release kept

theorem giveBack (stable : Stable licence holds) {addresses : List Address}
    (kept : holds (hand.shareAll addresses) state) :
    holds hand (state.releaseAll addresses) := by
  induction addresses generalizing state with
  | nil =>
      have same : state.releaseAll [] = state := by
        simp [State.releaseAll_eq]
      rw [same]
      simpa using kept
  | cons address others induction =>
      rw [Hand.shareAll_cons] at kept
      have first := stable.onHeap kept (.giveBack rfl)
      have rest := induction first
      rw [State.releaseAll_eq, ← List.singleton_append, Heap.releaseAll_append]
      exact rest

/-- Give handles back, owned or lent. -/
theorem discard (stable : Stable licence holds) {lent : Bool} {addresses : List Address}
    (kept : holds (hand.carryAll lent addresses) state) :
    holds hand (state.releaseAll addresses) := by
  cases lent with
  | false => exact stable.release kept
  | true => exact stable.giveBack kept

theorem share (stable : Stable licence holds) {address : Address}
    (kept : holds hand state) (shown : (state.ledger hand).Shows address) :
    holds (hand.share address) { state with heap := state.heap.retain address } :=
  stable.onHeap kept (.share shown)

theorem lower (stable : Stable licence holds) {address : Address}
    (kept : holds (hand.own address) state) : holds (hand.share address) state :=
  stable.onHeap kept (.lower rfl)

end Assertion.Stable

end ScriptEngine
