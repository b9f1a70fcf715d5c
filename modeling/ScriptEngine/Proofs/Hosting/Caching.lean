import ScriptEngine.Proofs.Hosting.Companions

/-!
# The cache of literals

Sessions that keep an object for each literal and sessions that make literals anew are
played with the same requests, side by side.  Their answers are alike, and what is kept for
a literal is at every moment what the literal stands for.
-/

namespace ScriptEngine

open Evaluation

namespace Session

variable {setup : Setup} {held : Keepings} {session other : Session} {fuel : Nat}
  {request : Request} {evaluator evaluator' : Setup → Nat → Nested}

/-! ## Single requests -/

/-- Reports alike, by sessions that are side by side again. -/
def Reported (setup : Setup) (report other : Report × Session) : Prop :=
  report.1.Alike other.1 ∧ ∃ held, Abreast setup held report.2 other.2

theorem Abreast.stepWith (abreast : Abreast setup held session other)
    (both : (evaluator setup fuel).Abreast (.first setup.program) (evaluator' setup fuel))
    (request : Request) :
    Together (Reported setup) (session.stepWith evaluator fuel request)
      (other.stepWith evaluator' fuel request) := by
  have performed := abreast.perform both request
  obtain ⟨links, joined⟩ := abreast.linked.joined
  unfold Session.stepWith
  generalize session.performWith evaluator fuel request = one,
    other.performWith evaluator' fuel request = another at performed ⊢
  cases performed with
  | error reason => exact .error reason
  | ok answered =>
      obtain ⟨alike, held, after⟩ := answered
      obtain ⟨links', joined'⟩ := after.linked.joined
      refine .ok ⟨⟨alike, ?_⟩, held, after⟩
      simp only [joined.along.output, joined'.along.output]

/-- A request to a session with the cache and to one without it. -/
theorem Abreast.step (abreast : Abreast setup held session other) (prints : setup.OnlyPrints)
    (proper : setup.program.NanFree) (fuel : Nat) (request : Request) :
    Together (Reported setup) (session.step fuel request)
      (other.stepWith Nested.uncached fuel request) := by
  rw [← stepWith_withFuel]
  exact abreast.stepWith (Nested.withFuel_abreast prints proper fuel) request

/-! ## Lists of requests -/

/-- The reports on requests that are made one after another, and the reason for which the
last one stopped, if it did. -/
def play (step : Nat → Session → Request → Except Stop (Report × Session)) :
    Session → List (Nat × Request) → List Report × Option Stop
  | _, [] => ([], none)
  | session, (fuel, request) :: others =>
      match step fuel session request with
      | .error reason => ([], some reason)
      | .ok (report, session) =>
          let (reports, stop) := play step session others
          (report :: reports, stop)

theorem Abreast.play (prints : setup.OnlyPrints) (proper : setup.program.NanFree)
    (requests : List (Nat × Request)) {held : Keepings} {session other : Session}
    (abreast : Abreast setup held session other) :
    List.Forall₂ Report.Alike (Session.play Session.step session requests).1
        (Session.play (Session.stepWith Nested.uncached) other requests).1 ∧
      (Session.play Session.step session requests).2 =
        (Session.play (Session.stepWith Nested.uncached) other requests).2 := by
  induction requests generalizing held session other with
  | nil => exact ⟨.nil, rfl⟩
  | cons entry others induction =>
      obtain ⟨fuel, request⟩ := entry
      have stepped := abreast.step prints proper fuel request
      simp only [Session.play]
      generalize session.step fuel request = one,
        other.stepWith Nested.uncached fuel request = another at stepped ⊢
      cases stepped with
      | error reason => exact ⟨.nil, rfl⟩
      | ok reported =>
          obtain ⟨alike, held, after⟩ := reported
          obtain ⟨rest, stops⟩ := induction after
          exact ⟨.cons alike rest, stops⟩

/-- A session at which requests arrive has one without the cache by its side. -/
theorem Runs.abreast (prints : setup.OnlyPrints) (proper : setup.program.NanFree)
    {requests : List (Nat × Request)} {last : Session} (runs : Runs session requests last)
    {other : Session} (started : ∃ held, Abreast setup held session other) :
    ∃ other held, Abreast setup held last other := by
  induction runs generalizing other with
  | nil session => exact ⟨other, started⟩
  | @cons session next last fuel request report others stepped _ induction =>
      obtain ⟨held, abreast⟩ := started
      have both := abreast.step prints proper fuel request
      rw [stepped] at both
      generalize other.stepWith Nested.uncached fuel request = another at both
      cases both with
      | ok reported => exact induction reported.2

theorem start_abreast (program : Program) (builtins : BuiltinTable) (sink : Sink)
    (limit : Option Nat) :
    Abreast ⟨program, builtins⟩ [] (start program builtins sink limit)
      (start program builtins sink limit) := by
  have ready : Holding Ledger.Orderly 0 .empty (start program builtins sink limit).state :=
    ⟨Ledger.Orderly.blank, rfl⟩
  refine ⟨rfl, rfl, rfl, rfl, List.nodup_nil, ?_⟩
  apply @Linked.reflexive _ _ (.first program) _ ready
  intro id address kept
  simp [start, Interpreter.create, state, State.literal?] at kept

/-! ## Moments during a request -/

/-- What is kept for a literal is what it stands for, whenever a node is evaluated. -/
theorem Abreast.faithful (abreast : Abreast setup held session other) (prints : setup.OnlyPrints)
    (proper : setup.program.NanFree) {moment : State} (visits : session.Visits fuel request moment) :
    moment.Faithful setup.program := by
  by_contra unfaithful
  have both : (Nested.watched setup (· ≠ moment) fuel).Abreast (.first setup.program)
      (Nested.uncached setup fuel) := by
    apply Nested.uncached_abreast prints proper
    rintro state faithful rfl
    exact unfaithful faithful
  have linked := abreast.linked
  unfold Visits at visits
  rw [abreast.setup_left, ← outcomeWith?_runCall] at visits
  rcases outcomeWith?_cases visits with ⟨statements, rfl, ran⟩ | ⟨statement, rfl, ran⟩ |
    ⟨expression, keep, rfl, ran⟩ | ⟨function, arguments, keep, rfl, _, ran⟩
  · exact (sequence_agreeing both statements _ _ linked).uninterrupted ran
  · exact (both.execute statement 0 _ _ _ linked).uninterrupted ran
  · exact (((both.operands 0).evaluate trivial _).void _ _ linked).uninterrupted ran
  · obtain ⟨pairs, firsts, _, described⟩ := abreast.describe arguments
    rw [abreast.setup_left, firsts] at ran
    exact ((callUser_abreast both function .empty).void _ _ described).uninterrupted ran

/-! ## The cache is transparent -/

variable {program : Program} {builtins : BuiltinTable} {sink : Sink} {limit : Option Nat}

/-- Whatever is requested of a new interpreter whose program has no NaN among its literals and
calls only functions that print, it answers as one that makes literals anew.  At every moment
what it keeps for a literal has the type and the contents of the literal. -/
theorem literals_transparent (prints : (⟨program, builtins⟩ : Setup).OnlyPrints)
    (proper : program.NanFree) (requests : List (Nat × Request)) :
    let kept := play step (start program builtins sink limit) requests
    let made := play (stepWith Nested.uncached) (start program builtins sink limit) requests
    List.Forall₂ Report.Alike kept.1 made.1 ∧ kept.2 = made.2 ∧
      ∀ session, Runs (start program builtins sink limit) requests session →
        session.state.Faithful program ∧
        ∀ fuel request moment, session.Visits fuel request moment → moment.Faithful program := by
  intro kept made
  have started := start_abreast program builtins sink limit
  obtain ⟨alike, stops⟩ := started.play prints proper requests
  refine ⟨alike, stops, fun session runs => ?_⟩
  obtain ⟨other, held, abreast⟩ := runs.abreast prints proper ⟨[], started⟩
  exact ⟨abreast.linked.faithful, fun _ _ _ visits => abreast.faithful prints proper visits⟩

/-- A literal, which is also printed. -/
def printedLiteral : Program where
  expressions := #[⟨.literal (.int 7), .empty⟩, ⟨.call (.builtin ⟨1⟩) [⟨0⟩], .empty⟩]
  names := (Interner.initial.internAll ["println"]).2

theorem printedLiteral_nanFree : printedLiteral.NanFree := by
  intro id value span found
  rcases id with ⟨_ | _ | _⟩
  · cases found
    rfl
  · cases found
  · simp [Program.expression?, printedLiteral] at found

/-- Whether two objects were found to be one, and equal, where that was asked. -/
def Reply.compared? : Reply → Option (Bool × Bool)
  | .comparison identical equal => some (identical, equal)
  | .done | .value _ | .text _ | .count _ | .failed _ | .unknownName => none

theorem literals_transparent_printedLiteral :
    let requests := [(9, .evaluate ⟨0⟩ (some "first")), (9, .evaluate ⟨0⟩ (some "second")),
      (9, .compare "first" "second"), (9, .evaluate ⟨1⟩ none)]
    let kept := play step (start printedLiteral .standard .buffer none) requests
    let made := play (stepWith Nested.uncached) (start printedLiteral .standard .buffer none)
      requests
    List.Forall₂ Report.Alike kept.1 made.1 ∧ kept.2 = none ∧ made.2 = none ∧
      kept.1.map (·.printed) = ["", "", "", "7\n"] ∧
      kept.1.map (·.reply.compared?) = [none, none, some (true, true), none] ∧
      made.1.map (·.reply.compared?) = [none, none, some (false, true), none] := by
  intro requests kept made
  obtain ⟨alike, _, _⟩ := @literals_transparent printedLiteral .standard .buffer none
    (Setup.onlyPrints_standard printedLiteral) printedLiteral_nanFree requests
  refine ⟨alike, ?_⟩
  decide +kernel

end Session

end ScriptEngine
