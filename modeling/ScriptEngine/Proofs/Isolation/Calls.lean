import ScriptEngine.Proofs.Abreast.Cached
import ScriptEngine.Proofs.Control.Performing
import ScriptEngine.Proofs.Hosting.Accounts
import ScriptEngine.Proofs.Isolation.Agreement
import ScriptEngine.Proofs.Isolation.Descent

/-!
# Calls and their callers

What a call does depends on what it can get at alone, and the frames of its callers come out
of it as they were.  A call is compared with one without callers: two such calls run side by
side, and each of them does what the call does above the frames of its callers.  What the
callers' frames hold stays as it is as long as the call has no other way to it: a container
that a local variable shares with the root frame or with an argument may be written to.
-/

namespace ScriptEngine

/-! ## Ends of calls -/

namespace Outcome

variable {α β : Type}

/-- The limit on calls was not exceeded. -/
def WithinLimit (outcome : Outcome α) : Prop :=
  ∀ failure, outcome.failure? = some failure → ¬ failure.IsOverflow

theorem WithinLimit.of_value (result : α) (last : State) :
    (Outcome.value result last).WithinLimit := by
  intro failure failed
  simp [failure?] at failed

/-- Two calls give the same value, or fail for the same reason at the same place, and what can
be got at afterwards is the same. -/
inductive Corresponds : Outcome Address → Outcome Address → Prop where
  | value {links : Links} {result result' : Address} {after after' : State} :
      State.Corresponds links [result] [result'] after after' →
        Corresponds (.value result after) (.value result' after')
  | failure {links : Links} {failure failure' : Failure} {after after' : State} :
      failure.Resembles failure' → State.Corresponds links [] [] after after' →
        Corresponds (.failure failure after) (.failure failure' after')
  | stopped (reason : Stop) : Corresponds (.stopped reason) (.stopped reason)

theorem Lifts.exists_state {view : α → β} {ended : State → State → Prop} {one : Outcome α}
    {another : Outcome β} {after : State} (lifts : Lifts view ended one another)
    (contained : another.WithinLimit) (ends : another.state? = some after) :
    ∃ last, one.state? = some last ∧ ended last after := by
  cases lifts with
  | value related => exact ⟨_, rfl, Option.some.inj ends ▸ related⟩
  | failure _ related => exact ⟨_, rfl, Option.some.inj ends ▸ related⟩
  | stopped reason => simp [state?] at ends
  | overflow exceeds => exact absurd exceeds (contained _ rfl)

/-- Two calls without callers that run side by side, and the same calls above callers. -/
theorem Abreast.corresponds {hands : Hands} {callers callers' : Callers} {height height' : Height}
    {bare bare' outcome outcome' : Outcome Address}
    (beside : Abreast (fun result result' => Linked .both 0 (hands.own (result, result')))
      (Linked .both 0 hands) bare bare')
    (lifts : Lifts (fun result => result) (callers.Lift height) bare outcome)
    (lifts' : Lifts (fun result => result) (callers'.Lift height') bare' outcome')
    (within : outcome.WithinLimit) (within' : outcome'.WithinLimit) :
    Corresponds outcome outcome' := by
  cases beside with
  | @value result result' _ _ linked =>
      cases lifts with
      | overflow exceeds => exact absurd exceeds (within _ rfl)
      | value lift =>
          cases lifts' with
          | overflow exceeds => exact absurd exceeds (within' _ rfl)
          | value lift' =>
              have has : (hands.own (result, result')).Has result result' :=
                Hands.has_own_iff.mpr (Or.inl rfl)
              obtain ⟨links, corresponds⟩ := linked.corresponds lift lift' (.cons has .nil)
              exact .value corresponds
  | failure failure linked =>
      cases lifts with
      | overflow exceeds => exact absurd exceeds (within _ rfl)
      | failure alike lift =>
          cases lifts' with
          | overflow exceeds => exact absurd exceeds (within' _ rfl)
          | failure alike' lift' =>
              obtain ⟨links, corresponds⟩ := linked.corresponds lift lift' .nil
              exact .failure ⟨alike.cause.symm.trans alike'.cause, alike.span.symm.trans alike'.span⟩
                corresponds
  | @stopped reason _ =>
      cases lifts with
      | overflow exceeds => exact absurd exceeds (within _ rfl)
      | stopped _ =>
          cases lifts' with
          | overflow exceeds => exact absurd exceeds (within' _ rfl)
          | stopped _ => exact .stopped reason

end Outcome

open Evaluation

variable {setup : Setup} {state other last after : State} {links : Links}
variable {arguments others : List Address} {hand hand' : Hand}

/-- However a call ends, what lasts holds with what was at hand before. -/
theorem callUser_lasts {property : Ledger → Prop} (lasting : Ledger.Lasting ⟨True, True⟩ property)
    (discreet : setup.Discreet) (fuel : Nat) (id : FunctionId) (callSite : Span)
    (holds : property (state.ledger (hand.shareAll arguments)))
    (ended : (callUser setup (runCall setup (Nested.withFuel setup fuel)) id arguments callSite
      state).state? = some last) :
    ∃ hand', property (last.ledger hand') ∧ hand'.shared = hand.shared := by
  have triple : Triple (Holding property state.calls.depth (hand.carryAll true arguments))
      (callUser setup (runCall setup (Nested.withFuel setup fuel)) id arguments callSite)
      (fun result => Holding property state.calls.depth (hand.own result))
      (Holding property state.calls.depth hand) :=
    callUser_triple lasting (Nested.withFuel_sound lasting discreet.lawful.abides fuel) (fun _ => trivial)
      id arguments callSite hand
  let ends (last : State) : Prop :=
    ∃ hand', property (last.ledger hand') ∧ hand'.shared = hand.shared
  have either : Triple (Holding property state.calls.depth (hand.carryAll true arguments))
      (callUser setup (runCall setup (Nested.withFuel setup fuel)) id arguments callSite)
      (fun _ => ends) ends :=
    triple.weaken (fun _ started => started) (fun _ _ held => ⟨_, held.1, rfl⟩)
      fun _ held => ⟨_, held.1, rfl⟩
  exact either.of_state? ⟨holds, rfl⟩ ended

/-- A call above the frames of callers, and the same call without them. -/
theorem callUser_lifts_bare (discreet : setup.Discreet) (fuel : Nat) (id : FunctionId)
    (callSite : Span) {heap : Heap} (same : heap.Resembles state.heap) :
    Outcome.Lifts (fun result => result) (state.callers.Lift ⟨0, 0, 0⟩)
      (callUser setup (runCall setup (Nested.withFuel setup fuel)) id arguments callSite
        (state.bare heap))
      (callUser setup (runCall setup (Nested.withFuel setup fuel)) id arguments callSite state) :=
  Callers.callUser_lifts (Callers.withFuel_lifts discreet.blind fuel) id arguments callSite _ _
    (state.lift_bare same)

/-- A call that stays within the limit leaves its callers alone. -/
theorem callUser_spares (discreet : setup.Discreet) (fuel : Nat) (id : FunctionId)
    (callSite : Span) (orderly : (state.ledger (hand.shareAll arguments)).Orderly)
    (within : (callUser setup (runCall setup (Nested.withFuel setup fuel)) id arguments callSite
      state).WithinLimit)
    (ended : (callUser setup (runCall setup (Nested.withFuel setup fuel)) id arguments callSite
      state).state? = some after) : state.Spares arguments after := by
  obtain ⟨heap, aside, same, covers, bared⟩ := State.exists_bare arguments orderly
  obtain ⟨last, left, lift⟩ := (callUser_lifts_bare discreet fuel id callSite same).exists_state
    within ended
  obtain ⟨hand', orderly', shared⟩ := @callUser_lasts _ _ _ _ ⟨0, aside⟩ _ Ledger.Orderly.step
    discreet fuel id callSite bared left
  refine State.Spares.of_lift lift same bared covers orderly' (fun member => shared ▸ member) ?_
  intro value address payload secluded reaches found alive
  have started := secluded.conserves reaches same found
  obtain ⟨_, conserves, _⟩ := @callUser_lasts _ _ _ _ ⟨0, 0⟩ _ Ledger.Conserves.step
    discreet fuel id callSite (by simpa [Hand.shareAll] using started) left
  exact conserves.payload alive

theorem callUser_corresponds (discreet : setup.Discreet) (fuel : Nat) (id : FunctionId)
    (callSite : Span) (orderly : (state.ledger (hand.shareAll arguments)).Orderly)
    (orderly' : (other.ledger (hand'.shareAll others)).Orderly)
    (agree : State.Agree links arguments others state other)
    (within : (callUser setup (runCall setup (Nested.withFuel setup fuel)) id arguments callSite
      state).WithinLimit)
    (within' : (callUser setup (runCall setup (Nested.withFuel setup fuel)) id others callSite
      other).WithinLimit) :
    Outcome.Corresponds
      (callUser setup (runCall setup (Nested.withFuel setup fuel)) id arguments callSite state)
      (callUser setup (runCall setup (Nested.withFuel setup fuel)) id others callSite other) := by
  obtain ⟨heap, aside, same, _, bared⟩ := State.exists_bare arguments orderly
  obtain ⟨heap', aside', same', _, bared'⟩ := State.exists_bare others orderly'
  have lengths := agree.arguments.length_eq
  have both := Nested.withFuel_agreeing discreet.impartial fuel
  have beside := @callUser_abreast _ 0 (Hands.apart aside aside') setup _ _ (arguments.zip others)
    both id callSite _ _ (agree.linked same same' bared bared')
  rw [List.map_fst_zip lengths.le, List.map_snd_zip lengths.ge] at beside
  exact beside.corresponds (callUser_lifts_bare discreet fuel id callSite same)
    (callUser_lifts_bare discreet fuel id callSite same') within within'

/-- From a call of a function up to the first statement of its body. -/
def beginCall (setup : Setup) (function : Function) (arguments : List Address) :
    Evaluation Unit := do
  enterCall setup function .empty
  update fun state => { state with scopes := state.scopes.push }
  bindParameters (function.parameters.zip arguments)

theorem beginCall_orderly {function : Function}
    (arity : arguments.length = function.parameters.length)
    (orderly : (state.ledger (hand.shareAll arguments)).Orderly)
    (began : beginCall setup function arguments state = .value () last) :
    (last.ledger hand).Orderly := by
  have lasting : Ledger.Lasting ⟨True, True⟩ Ledger.Orderly := Ledger.Orderly.step
  have bound : Triple
      (Holding Ledger.Orderly (state.calls.depth + 1) (hand.carryAll true arguments))
      (bindParameters (function.parameters.zip arguments))
      (fun _ => Holding Ledger.Orderly (state.calls.depth + 1) hand) fun _ => True := by
    have whole := @bindParameters_triple _ _ (state.calls.depth + 1) lasting true
      (fun _ => trivial) (function.parameters.zip arguments) hand
    rw [List.map_snd_zip arity.le] at whole
    exact whole.weaken (fun _ held => held) (fun _ _ held => held) fun _ _ => trivial
  have begins : Triple (Holding Ledger.Orderly state.calls.depth (hand.carryAll true arguments))
      (beginCall setup function arguments)
      (fun _ => Holding Ledger.Orderly (state.calls.depth + 1) hand) fun _ => True := by
    refine Triple.bind ((enterCall_triple function .empty _).weaken (fun _ held => held)
      (fun _ _ held => held) fun _ _ => trivial) fun _ => ?_
    have pushes : Triple
        (Holding Ledger.Orderly (state.calls.depth + 1) (hand.carryAll true arguments))
        (update fun state => { state with scopes := state.scopes.push })
        (fun _ => Holding Ledger.Orderly (state.calls.depth + 1) (hand.carryAll true arguments))
        fun _ => True :=
      fun _ held => held.step lasting .push rfl
    exact Triple.bind pushes fun _ => bound
  exact (begins.of_value ⟨orderly, rfl⟩ began).1

/-! ## What is lent -/

/-- A function that calls another one. -/
def Function.borrower : Function :=
  ⟨.empty, [⟨⟨3⟩, .vector .int⟩], .none, ⟨[⟨4⟩], .empty⟩, .empty⟩

/-- A global variable, a function that sets it to a copy of its argument, one that replaces
its first element by what a built-in function hands back and gives a copy of the whole, and
one that calls the latter. -/
def Program.lending : Program where
  expressions :=
    #[⟨.literal (.int 0), .empty⟩, ⟨.reference ⟨1⟩, .empty⟩, ⟨.reference ⟨2⟩, .empty⟩,
      ⟨.assign ⟨1⟩ ⟨2⟩, .empty⟩, ⟨.index ⟨1⟩ [⟨0⟩], .empty⟩,
      ⟨.call (.builtin ⟨4⟩) [⟨8⟩], .empty⟩, ⟨.assign ⟨4⟩ ⟨5⟩, .empty⟩,
      ⟨.call (.user ⟨1⟩) [], .empty⟩, ⟨.literal (.int 9), .empty⟩]
  statements :=
    #[⟨.declare ⟨1⟩ (some ⟨0⟩), .empty⟩, ⟨.expression ⟨3⟩, .empty⟩, ⟨.expression ⟨6⟩, .empty⟩,
      ⟨.giveBack (some ⟨1⟩), .empty⟩, ⟨.expression ⟨7⟩, .empty⟩]
  functions :=
    #[⟨.empty, [⟨⟨2⟩, .vector .int⟩], .none, ⟨[⟨1⟩], .empty⟩, .empty⟩,
      ⟨.empty, [], .vector .int, ⟨[⟨2⟩, ⟨3⟩], .empty⟩, .empty⟩, .borrower]
  names := (Interner.initial.internAll ["shared", "value", "local", "pass"]).2

/-- The program with functions for inspection. -/
def Setup.lending : Setup :=
  ⟨.lending, .withInspection⟩

theorem lending_discreet : Setup.lending.Discreet where
  lawful := BuiltinTable.withInspection_lawful
  calls := by
    intro id name arguments span builtin found registered
    have member := Array.mem_of_getElem? found
    simp only [Setup.lending, Program.lending, List.mem_toArray, List.mem_cons, Located.mk.injEq,
      reduceCtorEq, false_and, Expression.call.injEq, Callee.builtin.injEq, List.not_mem_nil,
      or_false, false_or] at member
    obtain ⟨⟨rfl, -⟩, -⟩ := member
    have named : builtin.name = "pass" := BuiltinTable.name_of_get? registered
    apply BuiltinTable.withInspection_discreet (List.mem_of_find?_eq_some registered)
    · rintro rfl
      exact absurd named (by decide)
    · rintro rfl
      exact absurd named (by decide)

/-- The global variable is set to a vector, and the host gets hold of something. -/
def lendingRequests (last : Session.Request) : List (Nat × Session.Request) :=
  [(9, .run [⟨0⟩]), (9, .call ⟨0⟩ [.vector .int [.scalar (.int 1)]] none), (9, last)]

/-- A check of the session, of what the host gets hold of and of the state in which the body
begins of a function that is called with that. -/
def lends (last : Session.Request) (check : Session → Address → State → Bool) : Bool :=
  let start := Session.start .lending .withInspection .silent none
  (start.step 9 (.run [⟨0⟩])).toOption.any fun declared =>
    (declared.2.step 9 (.call ⟨0⟩ [.vector .int [.scalar (.int 1)]] none)).toOption.any fun called =>
      (called.2.step 9 last).toOption.any fun given =>
        given.2.held.head?.any fun entry => given.2.held = [entry] &&
          (beginCall .lending .borrower [entry.2] given.2.state).value?.any fun began =>
            check given.2 entry.2 began.2

theorem exists_of_lends {last : Session.Request} {check : Session → Address → State → Bool}
    (passed : lends last check = true) :
    ∃ session value caller,
      Session.Runs (.start .lending .withInspection .silent none) (lendingRequests last) session ∧
      beginCall .lending .borrower [value] session.state = .value () caller ∧
      (session.state.ledger (Hand.empty.shareAll [value])).Orderly ∧
      (caller.ledger Hand.empty).Orderly ∧ check session value caller = true := by
  simp only [lends] at passed
  obtain ⟨_, declared, declares, passed⟩ := Session.exists_step_of_any passed
  obtain ⟨_, called, calls, passed⟩ := Session.exists_step_of_any passed
  obtain ⟨_, session, gives, passed⟩ := Session.exists_step_of_any passed
  obtain ⟨entry, _, passed⟩ := (Option.any_eq_true _ _).mp passed
  obtain ⟨held, passed⟩ := Bool.and_eq_true_iff.mp passed
  obtain ⟨_, caller, began, checked⟩ := Outcome.exists_of_any passed
  have runs := Session.Runs.cons declares (.cons calls (.cons gives (.nil session)))
  have upholds := runs.upholds Ledger.Orderly.hosted (by simp)
    (Session.start_upholds BuiltinTable.withInspection_lawful Ledger.Orderly.blank)
  have orderly : (session.state.ledger (Hand.empty.shareAll [entry.2])).Orderly := by
    have known := upholds.ledger
    have only : session.hand = Hand.empty.shareAll [entry.2] := by
      have kept : session.held = [entry] := of_decide_eq_true held
      simp [Session.hand, kept, Hand.empty, Hand.shareAll]
    rwa [Session.ledger, only] at known
  exact ⟨session, entry.2, caller, runs, began, orderly, beginCall_orderly rfl orderly began,
    checked⟩

/-- Whether a heap has all objects of another. -/
def Heap.includes (heap other : Heap) : Bool :=
  (List.range other.cells.size).all fun address =>
    heap.payload? address = other.payload? address && heap.type address = other.type address

theorem Heap.of_includes {heap other : Heap} {address : Address}
    (includes : heap.includes other = true) (present : other.payload? address ≠ none) :
    heap.payload? address = other.payload? address ∧ heap.type address = other.type address := by
  obtain ⟨payload, found⟩ := Option.ne_none_iff_exists'.mp present
  have inside := List.mem_range.mpr (Heap.lt_size_of_payload? found)
  obtain ⟨payloads, types⟩ := Bool.and_eq_true_iff.mp (List.all_eq_true.mp includes _ inside)
  exact ⟨of_decide_eq_true payloads, of_decide_eq_true types⟩

/-- Whether a value holds scalars alone, and nothing that a call without arguments can get at
refers to it. -/
def State.unheld (state : State) (value : Address) : Bool :=
  value ∉ state.scopes.root.values && value ∉ state.literals.toList.reduceOption &&
    ((List.range state.heap.cells.size).all fun holder =>
      (state.heap.payload? holder).all fun payload => value ∉ payload.children) &&
    (state.heap.payload? value).all fun payload =>
      payload.children.all fun child => (state.heap.scalar? child).isSome

theorem State.secluded_of_unheld {value : Address} (unheld : state.unheld value = true) :
    state.Secluded [] value := by
  simp only [State.unheld, Bool.and_eq_true, decide_eq_true_eq] at unheld
  obtain ⟨⟨⟨unbound, unkept⟩, outside⟩, flat⟩ := unheld
  refine .of_unheld ⟨List.not_mem_nil, unbound, unkept⟩ ?_ ?_
  · rintro holder ⟨payload, found, child⟩
    have inside := List.mem_range.mpr (Heap.lt_size_of_payload? found)
    have passed := List.all_eq_true.mp outside holder inside
    rw [found] at passed
    exact of_decide_eq_true passed child
  · rintro child ⟨payload, found, member⟩
    rw [found] at flat
    obtain ⟨scalar, known⟩ := Option.isSome_iff_exists.mp (List.all_eq_true.mp flat child member)
    exact Heap.not_isContainer_of_scalar? known

end ScriptEngine
