import ScriptEngine.Proofs.Control.Rounds
import ScriptEngine.Proofs.Hosting.Accounts

/-!
# Loops over what an expression gives

At any moment of any request, a `for` loop goes through what its iterable was when it
was evaluated, whatever its body then does to the loop variable, to the variable that
the iterable came from or to what that holds.
-/

namespace ScriptEngine

open Evaluation

/-- The state in which a loop over the items of an object starts to go round: a range is
given back before, and what items are taken from stays owned. -/
def Items.enter (items : Items) (source : Address) (state : State) : State :=
  match items with
  | .integers _ _ => state.releaseAll [source]
  | .elements _ _ | .entries _ _ _ => state

/-- The state with another loop, whose frame lies above the current scope frames. -/
def State.pushLoop (state : State) : State :=
  { state with loops := state.loops.push { scopeDepth := state.scopes.depth } }

namespace Evaluation

variable {setup : Setup} {nested : Nested} {name : Name} {iterable : ExpressionId} {body : Block}
  {start middle : State} {source : Address} {items : Items}

theorem holding_nil {α : Type} (body : Evaluation α) : holding [] body = body := by
  funext start
  unfold holding ensuring
  simp only [State.releaseAll_eq, Heap.releaseAll_nil]
  cases body start <;> rfl

/-- A loop evaluates what it is over, goes round, and leaves its frame. -/
theorem forEach_eq (evaluated : nested.evaluate iterable start = .value source middle)
    (found : Items.of? middle.heap source = some items) :
    forEach setup nested name iterable body start =
      holding items.source?.toList
        (inLoop fun inside =>
          (rounds nested name body nested.iterations items inside).2.outcome)
        (items.enter source middle) := by
  simp only [outcome_rounds]
  unfold forEach
  simp only [bind_run, evaluated, read, found]
  rcases Items.of?_cases found with ⟨next, stop, rfl⟩ | ⟨payload, _, _, same⟩
  · rw [Items.source?, Option.toList_none, holding_nil]
    rfl
  · cases items with
    | integers next stop => simp [Items.source?] at same
    | elements vector position =>
        obtain rfl := Option.some.inj same
        rfl
    | entries dict position pairType =>
        obtain rfl := Option.some.inj same
        rfl

/-- Whatever its body does, a loop goes by what the items read as to begin with. -/
theorem forEach_unrolls (orderly : nested.Sound Ledger.Orderly)
    (preserves : ∀ origin source, nested.Sound (Ledger.Preserves origin source))
    (keeps : ∀ value, (iteration nested (some (name, value)) body).Keeps .block)
    (ordered : start.Ordered)
    (evaluated : nested.evaluate iterable start = .value source middle)
    (found : Items.of? middle.heap source = some items) (count : Nat) :
    let rounds := rounds nested name body count items (items.enter source middle).pushLoop
    Unrolls name (items.snapshot middle.heap) items count (items.enter source middle).pushLoop
      rounds.1 rounds.2 := by
  obtain ⟨hand, ordered⟩ := ordered
  have held : Holding Ledger.Orderly start.calls.depth (hand.own source) middle :=
    ((orderly.operands _).evaluate iterable hand).of_value ⟨ordered, rfl⟩ evaluated
  have lasting := @Ledger.Orderly.step ⟨True, True⟩
  rcases Items.of?_cases found with ⟨next, stop, rfl⟩ | ⟨payload, _, _, same⟩
  · have given : Holding Ledger.Orderly start.calls.depth hand
        ((Items.integers next stop).enter source middle).pushLoop := by
      apply (Holding.stable lasting _).release
      rw [Hand.ownAll_cons, Hand.ownAll_nil]
      exact held
    have reads : ∀ {ledger : Ledger}, ledger.Orderly → Intact middle.heap ledger.heap none :=
      fun orderly => ⟨⟨_, _, orderly.sound⟩, nofun⟩
    exact rounds_unroll lasting orderly keeps reads ⟨⟨_, _, held.1.sound⟩, nofun⟩ rfl given
  · have whole : (middle.ledger hand).Preserves middle.heap source := ⟨held.1, .refl _ _⟩
    have preserved : Holding (Ledger.Preserves middle.heap source) start.calls.depth hand
        (items.enter source middle).pushLoop := by
      cases items with
      | integers next stop => simp [Items.source?] at same
      | elements _ _ => exact ⟨whole, held.2⟩
      | entries _ _ _ => exact ⟨whole, held.2⟩
    have reads : ∀ {ledger : Ledger}, ledger.Preserves middle.heap source →
        Intact middle.heap ledger.heap (some source) := by
      intro ledger preserved
      refine ⟨⟨_, _, preserved.orderly.sound⟩, ?_⟩
      intro _ taken
      exact Option.some.inj taken ▸ preserved.alike
    exact rounds_unroll (@Ledger.Preserves.step ⟨True, True⟩ _ _) (preserves _ source) keeps reads
      (reads whole) same preserved

end Evaluation

namespace Session

variable {session : Session} {program : Program} {builtins : BuiltinTable} {sink : Sink}
  {limit : Option Nat} {requests : List (Nat × Request)}

/-- At any moment of any request, a loop over what an expression gives goes round as its
rounds do, and these go by a snapshot of the items that there were when the expression had
been evaluated, whatever they run: numbers, copies of elements, or pairs of a copied key
and a copied value.  Each body starts with the variable bound to a new object that reads as
its item.  A range that ends where it starts, or before, has no rounds. -/
theorem Runs.loops_unroll (lawful : builtins.Lawful)
    (runs : Runs (start program builtins sink limit) requests session) {fuel : Nat}
    {request : Request} {moment : State} (visits : session.Visits fuel request moment)
    (more : Nat) (name : Name) (iterable : ExpressionId) (body : Block) {source : Address}
    {middle : State} {items : Items}
    (evaluated : (Nested.withFuel session.interpreter.setup more).evaluate iterable moment =
      .value source middle)
    (found : Items.of? middle.heap source = some items) :
    let nested := Nested.withFuel session.interpreter.setup more
    let inside := (items.enter source middle).pushLoop
    let unrolled := rounds nested name body nested.iterations items inside
    forEach session.interpreter.setup nested name iterable body moment =
        holding items.source?.toList (inLoop fun _ => unrolled.2.outcome)
          (items.enter source middle) ∧
      Unrolls name (items.snapshot middle.heap) items nested.iterations inside unrolled.1
        unrolled.2 ∧
      ∀ {next stop : Int64}, items = .integers next stop → stop.toInt ≤ next.toInt →
        unrolled.1 = [] := by
  have upholds := runs.upholds Ledger.Orderly.hosted (by simp)
    (start_upholds lawful Ledger.Orderly.blank)
  have ordered := upholds.visited Ledger.Orderly.hosted (by simp) visits
  have unrolls := forEach_unrolls
    (Nested.withFuel_sound (@Ledger.Orderly.step ⟨True, True⟩) upholds.lawful.abides more)
    (fun origin source => Nested.withFuel_sound (@Ledger.Preserves.step ⟨True, True⟩ origin source)
      upholds.lawful.abides more)
    (fun value => (Nested.withFuel_related (.keeping _) more).iteration (some (name, value)) body)
    ordered evaluated found (Nested.withFuel session.interpreter.setup more).iterations
  refine ⟨forEach_eq evaluated found, unrolls, ?_⟩
  rintro next stop rfl empty
  have none : (stop.toInt - next.toInt).toNat = 0 := by omega
  have ordered := unrolls.ordered
  rw [Items.snapshot, none, List.range_zero, List.map_nil, List.prefix_nil] at ordered
  exact List.map_eq_nil_iff.mp ordered

/-- A variable that a call makes a vector, and a loop over it that overwrites its second
element. -/
def revising : Program where
  expressions :=
    #[⟨.literal (.int 0), .empty⟩, ⟨.literal (.int 1), .empty⟩, ⟨.reference ⟨0⟩, .empty⟩,
      ⟨.reference ⟨1⟩, .empty⟩, ⟨.assign ⟨2⟩ ⟨3⟩, .empty⟩, ⟨.index ⟨2⟩ [⟨1⟩], .empty⟩,
      ⟨.assign ⟨5⟩ ⟨0⟩, .empty⟩]
  statements :=
    #[⟨.declare ⟨0⟩ (some ⟨0⟩), .empty⟩, ⟨.expression ⟨4⟩, .empty⟩, ⟨.expression ⟨6⟩, .empty⟩,
      ⟨.forEach ⟨2⟩ ⟨2⟩ ⟨[⟨2⟩], .empty⟩, .empty⟩]
  functions := #[⟨.empty, [⟨⟨1⟩, .vector .int⟩], .none, ⟨[⟨1⟩], .empty⟩, .empty⟩]

theorem Runs.loops_unroll_revising :
    ∃ session source middle items,
      Runs (start revising .standard .silent none)
        [(9, .execute ⟨0⟩), (9, .call ⟨0⟩ [.vector .int [.scalar (.int 1), .scalar (.int 2)]] none)]
        session ∧
      session.Visits 9 (.execute ⟨3⟩) session.state ∧
      (Nested.withFuel session.interpreter.setup 9).evaluate ⟨2⟩ session.state =
        .value source middle ∧
      Items.of? middle.heap source = some items ∧
      let nested := Nested.withFuel session.interpreter.setup 9
      let inside := (items.enter source middle).pushLoop
      let unrolled := rounds nested ⟨2⟩ ⟨[⟨2⟩], .empty⟩ nested.iterations items inside
      unrolled.1.map (fun round => round.value.render true) = ["1", "2"] ∧
        forEach session.interpreter.setup nested ⟨2⟩ ⟨2⟩ ⟨[⟨2⟩], .empty⟩ session.state =
          holding items.source?.toList (inLoop fun _ => unrolled.2.outcome)
            (items.enter source middle) ∧
        Unrolls ⟨2⟩ (items.snapshot middle.heap) items nested.iterations inside unrolled.1
          unrolled.2 := by
  have ran : ((start revising .standard .silent none).step 9 (.execute ⟨0⟩)).toOption.any
      (fun declared => (declared.2.step 9 (.call ⟨0⟩
        [.vector .int [.scalar (.int 1), .scalar (.int 2)]] none)).toOption.any fun called =>
          let nested := Nested.withFuel called.2.interpreter.setup 9
          match nested.evaluate ⟨2⟩ called.2.state with
          | .value source middle =>
              (Items.of? middle.heap source).any fun items =>
                let inside := (items.enter source middle).pushLoop
                let unrolled := rounds nested ⟨2⟩ ⟨[⟨2⟩], .empty⟩ nested.iterations items inside
                unrolled.1.map (fun round => round.value.render true) = ["1", "2"]
          | _ => false) = true := by decide +kernel
  obtain ⟨_, first, declared, ran⟩ := exists_step_of_any ran
  obtain ⟨_, session, called, ran⟩ := exists_step_of_any ran
  have runs := Runs.cons declared (.cons called (.nil session))
  have visits := session.visits_start 8 ⟨3⟩
  dsimp only at ran
  split at ran
  · rename_i source middle evaluated
    obtain ⟨items, found, rendered⟩ := (Option.any_eq_true _ _).mp ran
    obtain ⟨same, unrolls, _⟩ := Runs.loops_unroll BuiltinTable.standard_lawful runs visits 9 ⟨2⟩ ⟨2⟩
      ⟨[⟨2⟩], .empty⟩ evaluated found
    exact ⟨session, source, middle, items, runs, visits, evaluated, found,
      of_decide_eq_true rendered, same, unrolls⟩
  · simp at ran

end Session

end ScriptEngine
