import ScriptEngine.Proofs.Control.Limits
import ScriptEngine.Proofs.Hosting.Backtraces

/-!
# Limits on the depth of calls during requests

A limit on the depth of calls cuts a request off or plays no part in it.  It
cuts the request off exactly if without a limit more calls would be active at
some moment.
-/

namespace ScriptEngine

open Evaluation

namespace Session

variable {session : Session} {fuel : Nat} {request : Request}

/-- The session with another limit on the depth of calls. -/
def withLimit (session : Session) (limit : Option Nat) : Session :=
  session.withState (session.state.withLimit limit)

/-- Whether there is a state of some kind while a request is carried out: where
the evaluation of a node or the body of a call begins or ends. -/
def Passes (session : Session) (fuel : Nat) (request : Request) (kind : State → Prop) : Prop :=
  let nested := Nested.monitored session.interpreter.setup (¬ kind ·) fuel
  session.outcomeWith? nested
      (observedCall session.interpreter.setup (¬ kind ·) nested) request =
    some (.stopped .interrupted)

/-- Whether a request ends with the failure of a call that would exceed a
limit. -/
def Overflows (session : Session) (fuel : Nat) (request : Request) (limit : Nat) : Prop :=
  ∃ report after failure, session.step fuel request = .ok (report, after) ∧
    report.reply = .failed failure ∧ failure.cause = .stackOverflow limit

/-! ## Runs of requests under two limits -/

/-- The limit is no part of what a request asks for. -/
theorem errand_withLimit (session : Session) (limit : Option Nat) (request : Request) :
    (session.withLimit limit).errand request = session.errand request := by
  cases request <;> rfl

theorem opening_withLimit (session : Session) (limit : Option Nat) (code : Code) :
    (session.withLimit limit).opening code = (session.opening code).withLimit limit := by
  cases code <;> rfl

theorem evaluation_withLimit (session : Session) (limit : Option Nat) (nested : Nested)
    (run : Function → List Address → Evaluation (Option Address)) (code : Code) :
    (session.withLimit limit).evaluation nested run code = session.evaluation nested run code := by
  cases code <;> rfl

/-- What is allowed where a session is is allowed where its code starts. -/
theorem allows_opening {regime : Regime} (allows : regime.Allows session.state) (code : Code) :
    regime.Allows (session.opening code) := by
  rw [Regime.Allows, calls_opening]
  exact allows

theorem outcome?_parallel (regime : Regime) (allows : regime.Allows session.state) (fuel : Nat)
    (request : Request) :
    let setup := session.interpreter.setup
    let nested := Nested.monitored setup regime.Allows fuel
    ((session.withLimit (some regime.limit)).outcome? (.withFuel setup fuel) request = none ∧
      (session.withLimit regime.more).outcomeWith? nested
        (observedCall setup regime.Allows nested) request = none) ∨
    ∃ first second,
      (session.withLimit (some regime.limit)).outcome? (.withFuel setup fuel) request =
        some first ∧
      (session.withLimit regime.more).outcomeWith? nested
        (observedCall setup regime.Allows nested) request = some second ∧
      regime.Matches setup first second := by
  intro setup nested
  have related : (Nested.withFuel setup fuel).Related (.parallel setup regime) nested :=
    Nested.withFuel_parallel setup regime fuel
  rw [← outcomeWith?_runCall, outcomeWith?_eq, outcomeWith?_eq, errand_withLimit, errand_withLimit]
  cases (session.errand request).code? with
  | none => exact Or.inl ⟨rfl, rfl⟩
  | some code =>
      refine Or.inr ⟨_, _, rfl, rfl, ?_⟩
      simp only [opening_withLimit, evaluation_withLimit]
      have evaluated := (evaluation_related related code).bind fun _ => Related.pure ()
      exact evaluated (session.opening code) (allows_opening allows code)

/-! ## Answers under two limits -/

/-- An answer with another limit in the session that goes with it. -/
def relimited {β : Type} (limit : Option Nat) (answer : β × Session) : β × Session :=
  (answer.1, answer.2.withLimit limit)

theorem conclude_withLimit {α : Type} {answer : Session → α → Reply × Session}
    (answers : ∀ (session : Session) result limit,
      answer (session.withLimit limit) result = relimited limit (answer session result))
    (outcome : Outcome α) (limit : Option Nat) :
    session.conclude (outcome.withLimit limit) answer =
      (session.conclude outcome answer).map (relimited limit) := by
  cases outcome with
  | value result state =>
      exact congrArg Except.ok (answers (session.withState state) result limit)
  | failure raised state => rfl
  | stopped reason => rfl

theorem deliver_withLimit (keep : Option String) (session : Session) (address : Address)
    (limit : Option Nat) :
    (session.withLimit limit).deliver keep address =
      relimited limit (session.deliver keep address) := by
  cases keep with
  | none => rfl
  | some name => rfl

theorem handOver_withLimit (keep : Option String) (session : Session) (result : Option Address)
    (limit : Option Nat) :
    handOver keep (session.withLimit limit) result =
      relimited limit (handOver keep session result) := by
  cases result with
  | none => rfl
  | some address => exact deliver_withLimit keep session address limit

/-- A run that the lower limit does not cut off is concluded in the same way. -/
theorem conclude_parallel (session : Session) {regime : Regime} {setup : Setup} {α : Type}
    {first second : Outcome α} {answer : Session → α → Reply × Session}
    (matched : regime.Matches setup first second)
    (answers : ∀ (session : Session) result limit,
      answer (session.withLimit limit) result = relimited limit (answer session result))
    (fits : ∀ raised after, session.conclude first answer = .ok (.failed raised, after) →
      raised.cause ≠ .stackOverflow regime.limit) :
    session.conclude second answer =
      (session.conclude first answer).map (relimited regime.more) := by
  cases matched with
  | cut overflow => exact absurd overflow (fits _ _ rfl)
  | @same outcome fair =>
      rw [conclude_withLimit answers, conclude_withLimit answers]
      cases session.conclude outcome answer with
      | ok answered => rfl
      | error reason => rfl

theorem perform_parallel {limit : Nat} {more : Option Nat}
    (looser : ∀ bound, more = some bound → limit ≤ bound)
    (fits : ∀ failure after, (session.withLimit (some limit)).perform fuel request =
      .ok (.failed failure, after) → failure.cause ≠ .stackOverflow limit) :
    (session.withLimit more).perform fuel request =
      ((session.withLimit (some limit)).perform fuel request).map (relimited more) := by
  let regime : Regime := ⟨limit, more, looser, False⟩
  let setup := session.interpreter.setup
  have always : ∀ state, regime.Allows state := fun _ => False.elim
  have related : (Nested.withFuel setup fuel).Related (.parallel setup regime)
      (.withFuel setup fuel) := by
    have related := Nested.withFuel_parallel setup regime fuel
    rwa [Nested.monitored_of_always setup always] at related
  simp only [perform_eq, errand_withLimit] at fits ⊢
  generalize session.errand request = errand at fits ⊢
  cases errand with
  | run code keep =>
      have ran := evaluation_related related code (session.opening code) (always _)
      rw [observedCall_of_always setup always] at ran
      simp only [carryOut, Session.ran, opening_withLimit, evaluation_withLimit] at fits ⊢
      exact session.conclude_parallel ran (handOver_withLimit keep) fits
  | lend address keep =>
      cases keep with
      | none => rfl
      | some name => rfl
  | _ => rfl

/-! ## Steps under two limits -/

/-- A step is what the request does, with what it printed. -/
theorem step_eq_map (session : Session) (fuel : Nat) (request : Request) :
    session.step fuel request = (session.perform fuel request).map fun answer =>
      (⟨answer.1, (answer.2.state.output.text.drop session.state.output.text.length).toString⟩,
        answer.2) := by
  unfold step
  cases session.perform fuel request with
  | ok answer => rfl
  | error reason => rfl

theorem overflows_of_perform {limit : Nat} {failure : Failure} {after : Session}
    (performed : session.perform fuel request = .ok (.failed failure, after))
    (overflow : failure.cause = .stackOverflow limit) :
    session.Overflows fuel request limit := by
  have stepped := session.step_eq_map fuel request
  rw [performed] at stepped
  exact ⟨_, _, failure, stepped, rfl, overflow⟩

theorem step_parallel {limit : Nat} {more : Option Nat}
    (looser : ∀ bound, more = some bound → limit ≤ bound)
    (fits : ¬ (session.withLimit (some limit)).Overflows fuel request limit) :
    (session.withLimit more).step fuel request =
      ((session.withLimit (some limit)).step fuel request).map (relimited more) := by
  have performed : (session.withLimit more).perform fuel request =
      ((session.withLimit (some limit)).perform fuel request).map (relimited more) := by
    apply perform_parallel looser
    intro failure after performed overflow
    exact fits (overflows_of_perform performed overflow)
  rw [step_eq_map, step_eq_map, performed]
  cases (session.withLimit (some limit)).perform fuel request with
  | ok answer => rfl
  | error reason => rfl

/-! ## Overflows -/

theorem value_or_failure_void {α : Type} {body : Evaluation α} {start last : State}
    {failure : Failure} (failed : (body >>= fun _ => pure ()) start = .failure failure last) :
    body start = .failure failure last := by
  rcases failure_bind failed with failed | ⟨result, middle, _, failed⟩
  · exact failed
  · simp [Pure.pure, Evaluation.pure] at failed

/-- A run that ends with a failure makes it the answer. -/
theorem failed_of_outcome? {failure : Failure} {last : State}
    (ends : session.outcome? (.withFuel session.interpreter.setup fuel) request =
      some (.failure failure last)) :
    ∃ after, session.perform fuel request = .ok (.failed failure, after) := by
  rw [← outcomeWith?_runCall] at ends
  obtain ⟨code, keep, asked, ran⟩ := exists_code_of_outcomeWith? ends
  rw [perform_eq, asked]
  exact ⟨_, congrArg (conclude session · (handOver keep)) (value_or_failure_void ran)⟩

/-- A request overflows exactly if without a limit more calls would be active at
some moment. -/
theorem overflows_iff_passes {limit : Nat} (shallow : session.state.calls.depth ≤ limit)
    (ordinary : session.interpreter.setup.builtins.Ordinary) :
    (session.withLimit (some limit)).Overflows fuel request limit ↔
      (session.withLimit none).Passes fuel request fun moment => limit < moment.calls.depth := by
  let regime : Regime := ⟨limit, none, nofun, True⟩
  have allowed : regime.Allows = (¬ limit < ·.calls.depth) := by
    funext state
    simp [Regime.Allows, regime]
  have both := session.outcome?_parallel regime (fun _ => shallow) fuel request
  rw [allowed] at both
  constructor
  · rintro ⟨report, after, failure, stepped, failed, overflow⟩
    have performed := perform_of_step stepped
    rw [failed] at performed
    have ended := outcome?_of_failed performed
    rcases both with ⟨nothing, _⟩ | ⟨first, second, ran, watched, matched⟩
    · exact absurd (nothing.symm.trans ended) nofun
    · have same : first = .failure failure after.state := Option.some.inj (ran.symm.trans ended)
      rw [same] at matched
      exact watched.trans (congrArg some (matched.interrupted rfl trivial ordinary overflow))
  · intro passes
    rcases both with ⟨_, nothing⟩ | ⟨first, second, ran, watched, matched⟩
    · exact absurd (nothing.symm.trans passes) nofun
    · have same : second = .stopped .interrupted := Option.some.inj (watched.symm.trans passes)
      rw [same] at matched
      obtain ⟨raised, last, rfl, overflow, _⟩ := matched.overflows
      obtain ⟨after, performed⟩ := failed_of_outcome? ran
      exact overflows_of_perform performed overflow

/-- No more calls are active than the limit allows. -/
theorem not_passes_limit {limit : Nat} (shallow : session.state.calls.depth ≤ limit) :
    ¬ (session.withLimit (some limit)).Passes fuel request
      fun moment => limit < moment.calls.depth := by
  let regime : Regime := ⟨limit, some limit, fun _ same => (Option.some.inj same).le, True⟩
  have allowed : regime.Allows = (¬ limit < ·.calls.depth) := by
    funext state
    simp [Regime.Allows, regime]
  have both := session.outcome?_parallel regime (fun _ => shallow) fuel request
  rw [allowed] at both
  intro passes
  rcases both with ⟨_, nothing⟩ | ⟨first, second, ran, watched, matched⟩
  · exact absurd (nothing.symm.trans passes) nofun
  · have same : second = .stopped .interrupted := Option.some.inj (watched.symm.trans passes)
    rw [same] at matched
    obtain ⟨_, _, _, _, differs⟩ := matched.overflows
    exact differs rfl

/-- A limit on the depth of calls only cuts requests off.  One that it does not cut
off is answered in the same way under any higher limit, and leaves the same state.
No more calls are ever active than it allows, if there are not more to begin with
(between requests there are none), and it cuts off exactly the requests during
which more would be without a limit. -/
theorem limit_only_cuts {session : Session} {limit : Nat} {more : Option Nat}
    (looser : ∀ bound, more = some bound → limit ≤ bound) (fuel : Nat) (request : Request) :
    (¬ (session.withLimit (some limit)).Overflows fuel request limit →
      (session.withLimit more).step fuel request =
        ((session.withLimit (some limit)).step fuel request).map (relimited more)) ∧
    (session.state.calls.depth ≤ limit →
      ¬ (session.withLimit (some limit)).Passes fuel request
        fun moment => limit < moment.calls.depth) ∧
    (session.state.calls.depth ≤ limit → session.interpreter.setup.builtins.Ordinary →
      ((session.withLimit (some limit)).Overflows fuel request limit ↔
        (session.withLimit none).Passes fuel request fun moment => limit < moment.calls.depth)) :=
  ⟨step_parallel looser, not_passes_limit, overflows_iff_passes⟩

/-- A function that calls another one, which does nothing. -/
def handingOn : Program where
  expressions := #[⟨.call (.user ⟨1⟩) [], .empty⟩]
  statements := #[⟨.expression ⟨0⟩, .empty⟩]
  functions := #[⟨.empty, [], .none, ⟨[⟨0⟩], .empty⟩, .empty⟩,
    ⟨.empty, [], .none, ⟨[], .empty⟩, .empty⟩]

theorem limit_only_cuts_handingOn :
    let session := start handingOn .standard .silent none
    (session.step 9 (.call ⟨0⟩ [] none) =
        ((session.withLimit (some 2)).step 9 (.call ⟨0⟩ [] none)).map (relimited none)) ∧
      (¬ (session.withLimit (some 1)).Passes 9 (.call ⟨0⟩ [] none) fun moment =>
        1 < moment.calls.depth) ∧
      session.Passes 9 (.call ⟨0⟩ [] none) fun moment => 1 < moment.calls.depth := by
  intro session
  have fits : ¬ (session.withLimit (some 2)).Overflows 9 (.call ⟨0⟩ [] none) 2 := by
    have answered : failure? ((session.withLimit (some 2)).step 9 (.call ⟨0⟩ [] none)) = none := by
      decide +kernel
    rintro ⟨⟨reply, printed⟩, after, failure, stepped, failed, _⟩
    obtain rfl : reply = .failed failure := failed
    simp [stepped, failure?] at answered
  have overflows : (session.withLimit (some 1)).Overflows 9 (.call ⟨0⟩ [] none) 1 := by
    have failed : failure? ((session.withLimit (some 1)).step 9 (.call ⟨0⟩ [] none)) =
        some ⟨.stackOverflow 1, some .empty, some ⟨[⟨"", .empty⟩]⟩⟩ := by
      decide +kernel
    obtain ⟨report, after, stepped, failed⟩ := of_failure? failed
    exact ⟨report, after, _, stepped, failed, rfl⟩
  have unlimited : session.withLimit none = session := rfl
  have cutTwo := @limit_only_cuts session 2 none nofun 9 (.call ⟨0⟩ [] none)
  have cutOne := @limit_only_cuts session 1 none nofun 9 (.call ⟨0⟩ [] none)
  rw [unlimited] at cutTwo cutOne
  have shallow : session.state.calls.depth ≤ 1 := Nat.zero_le 1
  exact ⟨cutTwo.1 fits, cutOne.2.1 shallow, (cutOne.2.2 shallow .standard).mp overflows⟩

end Session

end ScriptEngine
