import ScriptEngine.Proofs.Control.Termination
import ScriptEngine.Proofs.Hosting.Accounts
import ScriptEngine.Proofs.Hosting.Stacks

/-!
# Requests that end

A program that a builder makes and that has no `while`, no `do` and no `loop`
cannot run forever with a limit on the depth of calls.  Every request is answered
if there is enough fuel, whatever was requested before, and more fuel does not
change the answer.
-/

namespace ScriptEngine

open Evaluation

/-- The program has what a request refers to. -/
def Program.Knows (program : Program) : Session.Request → Prop
  | .run statements => ∀ id ∈ statements, program.HasStatement id
  | .execute id => program.HasStatement id
  | .evaluate id _ => program.HasExpression id
  | .call function _ _ => program.HasFunction function
  | _ => True

namespace Session

variable {session : Session} {limit : Nat}

/-- A request that runs no code is answered without fuel. -/
theorem perform_quiet {request : Request} (quiet : session.outcome? .exhausted request = none) :
    ∃ reply after, ∀ fuel, session.perform fuel request = .ok (reply, after) := by
  simp only [perform_eq]
  rw [← outcomeWith?_runCall, outcomeWith?_eq] at quiet
  generalize session.errand request = errand at quiet ⊢
  cases errand with
  | run code keep => simp [Errand.code?] at quiet
  | _ => exact ⟨_, _, fun _ => rfl⟩

/-- What ends makes the request that it is run for end. -/
theorem conclude_ends {α : Type} {start : State} {body : Nat → Evaluation α}
    (ends : EndsFrom start body) (answer : Session → α → Reply × Session) :
    ∃ fuel reply after, ∀ more, fuel ≤ more →
      session.conclude (body more start) answer = .ok (reply, after) := by
  obtain ⟨outcome, ends, fuel, settled⟩ := ends
  cases outcome with
  | value result last =>
      refine ⟨fuel, (answer (session.withState last) result).1,
        (answer (session.withState last) result).2, ?_⟩
      intro more enough
      rw [settled more enough]
      rfl
  | failure failure last =>
      refine ⟨fuel, .failed failure, session.withState last, ?_⟩
      intro more enough
      rw [settled more enough]
      rfl
  | stopped reason => exact absurd rfl (ends reason)

theorem Upholds.perform_ends (upholds : session.Upholds True Ledger.Orderly)
    (limited : session.state.calls.limit = some limit)
    (wellFormed : session.interpreter.setup.program.WellFormed)
    (bounded : session.interpreter.setup.program.Bounded) {request : Request}
    (known : session.interpreter.setup.program.Knows request) :
    ∃ fuel reply after, ∀ more, fuel ≤ more →
      session.perform more request = .ok (reply, after) := by
  have lawful := upholds.lawful
  have outside : session.state.calls.depth = 0 := by
    rw [Calls.depth, upholds.idle.call]
    rfl
  have settle := Nested.supervised_settle wellFormed bounded lawful limit
  have sound := Nested.supervised_orderly lawful
  have below := Nested.watched_below session.interpreter.setup State.Ordered
  have ready : Holding Ledger.Orderly 0 session.hand session.state := ⟨upholds.ledger, outside⟩
  cases ran : session.outcome? .exhausted request with
  | none =>
      obtain ⟨reply, after, performed⟩ := session.perform_quiet ran
      exact ⟨0, reply, after, fun more _ => performed more⟩
  | some outcome =>
      rw [← outcomeWith?_runCall] at ran
      rcases outcomeWith?_cases ran with ⟨statements, rfl, _⟩ | ⟨statement, rfl, _⟩ |
        ⟨expression, keep, rfl, _⟩ | ⟨function, arguments, keep, rfl, all, _⟩
      · have ends := ((settle 0).sequence known _ ⟨outside, limited⟩).ends
          (fun fuel => (below fuel).sequence statements)
          (fun fuel => (sequence_triple (sound fuel) statements _).uninterrupted ready)
        exact session.idle.conclude_ends ends fun session _ => (.done, session)
      · have ends := ((settle 0).execute known _ ⟨outside, limited⟩).ends
          (fun fuel => (below fuel).execute statement)
          (fun fuel => ((sound fuel).execute statement 0 _).uninterrupted ready)
        exact session.idle.conclude_ends ends fun session _ => (.done, session)
      · have ends := ((settle 0).operands.evaluate known _ ⟨outside, limited⟩).ends
          (fun fuel => (below fuel).operands.evaluate expression)
          (fun fuel => (((sound fuel).operands 0).evaluate expression _).uninterrupted ready)
        exact session.idle.conclude_ends ends fun session address => session.deliver keep address
      · have described := upholds.described (@Ledger.Orderly.hosted True).describing arguments
          (by simp)
        have calling := Nested.supervised_callUser wellFormed (fun _ => settle 1) known
          (Description.allocateAll session.held session.state.heap arguments).1 .empty
        have called := fun fuel =>
          @callUser_triple ⟨true = true, True⟩ _ 0 session.interpreter.setup _
            Ledger.Orderly.step (sound fuel) true (fun allowed => allowed) function
            (Description.allocateAll session.held session.state.heap arguments).1 .empty
            session.hand
        have ends := (calling { session.state with
          heap := (Description.allocateAll session.held session.state.heap arguments).2 }
            ⟨outside, limited⟩).ends
          (fun fuel => (below fuel).callUser function _ .empty)
          (fun fuel => (called fuel).uninterrupted ⟨described.1, outside⟩)
        obtain ⟨fuel, reply, after, concluded⟩ :=
          session.idle.conclude_ends ends fun session address => session.deliver keep address
        refine ⟨fuel, reply, after, ?_⟩
        intro more enough
        simp only [Session.perform, if_pos all]
        exact concluded more enough

/-- Every request that refers to what the program has is answered, however the
earlier ones went: with enough fuel always in the same way, so that recursion ends
in a result or a failure.  At any moment of any request a loop over the items of a
value has only so many rounds, whatever its body does. -/
theorem Runs.always_ends {builder : Builder} {builtins : BuiltinTable} {sink : Sink}
    (built : builder.Built) (bounded : builder.program.Bounded) (lawful : builtins.Lawful)
    {requests : List (Nat × Request)}
    (runs : Runs (start builder.program builtins sink (some limit)) requests session) :
    (∀ {request : Request}, builder.program.Knows request →
      ∃ fuel report after, ∀ more, fuel ≤ more →
        session.step more request = .ok (report, after)) ∧
    ∀ {fuel : Nat} {request : Request} {moment : State}, session.Visits fuel request moment →
      ∀ more name iterable body, ∃ rounds, ∀ count, rounds ≤ count →
        let nested := Nested.withFuel session.interpreter.setup more
        forEach session.interpreter.setup (nested.withRounds count) name iterable body moment =
          forEach session.interpreter.setup (nested.withRounds rounds) name iterable body
            moment := by
  have upholds := runs.upholds Ledger.Orderly.hosted (by simp)
    (start_upholds lawful Ledger.Orderly.blank)
  have same := runs.sameControl (State.idle_initial _ _ rfl)
  have program : session.interpreter.setup.program = builder.program :=
    congrArg Setup.program same.setup
  have limited : session.state.calls.limit = some limit := congrArg Calls.limit same.state.calls
  constructor
  · intro request known
    have performed := upholds.perform_ends limited (program ▸ built.wellFormed) (program ▸ bounded)
      (program ▸ known)
    obtain ⟨fuel, reply, after, performed⟩ := performed
    refine ⟨fuel, ⟨reply, (after.state.output.text.drop session.state.output.text.length).toString⟩,
      after, ?_⟩
    intro more enough
    simp only [step, performed more enough]
  · intro fuel request moment visits more name iterable body
    have ordered := upholds.visited Ledger.Orderly.hosted (by simp) visits
    have lasting := @Ledger.Orderly.step ⟨True, True⟩
    apply forEach_rounds (Nested.withFuel_sound lasting upholds.lawful.abides more) _ name iterable
      body ordered
    intro source payload container
    exact Nested.withFuel_sound (@Ledger.Shelters.step ⟨True, True⟩ _ _ container)
      upholds.lawful.abides more

/-- A function that calls itself once for every integer of a range. -/
def descending : Builder :=
  let builder := (Builder.initial.declareFunction "f" [("n", .int)] .none).2
  let builder := ((builder.literal (.int 0)).2.literal (.int 3)).2
  let builder := ((builder.range ⟨0⟩ ⟨1⟩).2.reference "x").2
  let builder := ((builder.call? ⟨0⟩ [⟨3⟩]).map Prod.snd).getD builder
  let builder := (builder.expressionStatement ⟨4⟩).2
  let builder := ((builder.forEach? "x" ⟨2⟩ [⟨0⟩]).map Prod.snd).getD builder
  (builder.defineBody? ⟨0⟩ [⟨1⟩]).getD builder

theorem Runs.always_ends_descending :
    ∃ session fuel report after, descending.Built ∧ descending.program.Bounded ∧
      Runs (start descending.program .standard .silent (some 2))
        [(0, .create "n" (.scalar (.int 1)))] session ∧
      (∀ more, fuel ≤ more →
        session.step more (.call ⟨0⟩ [.held "n"] none) = .ok (report, after)) ∧
      ∃ rounds, ∀ count, rounds ≤ count →
        let nested := Nested.withFuel session.interpreter.setup 9
        forEach session.interpreter.setup (nested.withRounds count) ⟨2⟩ ⟨2⟩ ⟨[⟨0⟩], .empty⟩
            session.state =
          forEach session.interpreter.setup (nested.withRounds rounds) ⟨2⟩ ⟨2⟩ ⟨[⟨0⟩], .empty⟩
            session.state := by
  have declared := (Builder.Built.start .initial).step (.declareFunction "f" [("n", .int)] .none)
  have bounds := (declared.step (.literal (.int 0))).step (.literal (.int 3))
  have ranging := (bounds.step (.range ⟨0⟩ ⟨1⟩ (by decide))).step (.reference "x")
  have calling := ranging.step (.call ⟨0⟩ [⟨3⟩] (by decide) rfl)
  have looping := (calling.step (.expressionStatement ⟨4⟩ (by decide))).step
    (.forEach "x" ⟨2⟩ [⟨0⟩] (by decide) rfl)
  have built : descending.Built := looping.step (.defineBody ⟨0⟩ [⟨1⟩] rfl)
  have bounded : descending.program.Bounded := by decide
  have created : ((start descending.program .standard .silent (some 2)).step 0
      (.create "n" (.scalar (.int 1)))).toOption.any (fun _ => true) = true := by decide +kernel
  obtain ⟨_, session, created, _⟩ := exists_step_of_any created
  have runs := Runs.cons created (.nil session)
  obtain ⟨ends, rounds⟩ := Runs.always_ends built bounded BuiltinTable.standard_lawful runs
  have known : descending.program.Knows (.call ⟨0⟩ [.held "n"] none) := by
    show descending.program.HasFunction ⟨0⟩
    decide
  obtain ⟨fuel, report, after, stepped⟩ := ends known
  exact ⟨session, fuel, report, after, built, bounded, runs, stepped,
    rounds (session.visits_start 8 ⟨1⟩) 9 ⟨2⟩ ⟨2⟩ ⟨[⟨0⟩], .empty⟩⟩

end Session

end ScriptEngine
