import ScriptEngine.Proofs.Control.Failures
import ScriptEngine.Proofs.Control.Stacks
import ScriptEngine.Proofs.Custody.Runs

/-!
# Limits on the depth of calls

Two runs from one state, of which the second may have more active calls, do the
same as long as the first does not overflow.  An observer of the second that
looks where calls are entered interrupts it exactly where the first overflows.
-/

namespace ScriptEngine

open Evaluation

variable {α β : Type} {setup : Setup}

/-! ## Observers of calls -/

/-- Run the body of a call, observed as nodes are. -/
noncomputable def Evaluation.observedCall (setup : Setup) (allowed : State → Prop)
    (nested : Nested) (function : Function) (arguments : List Address) :
    Evaluation (Option Address) :=
  Evaluation.observed allowed (runCall setup nested function arguments)

namespace Nested

/-- The evaluator with fuel, every node of which is observed, and every body of a
call. -/
noncomputable def monitored (setup : Setup) (allowed : State → Prop) : Nat → Nested
  | 0 => exhausted
  | fuel + 1 =>
      observed allowed (layerWith setup (observedCall setup allowed (monitored setup allowed fuel))
        (monitored setup allowed fuel) fuel)

end Nested

theorem Evaluation.observedCall_of_always (setup : Setup) {allowed : State → Prop}
    (always : ∀ state, allowed state) (nested : Nested) :
    observedCall setup allowed nested = runCall setup nested := by
  funext function arguments
  exact observed_of_always always _

theorem Nested.monitored_of_always (setup : Setup) {allowed : State → Prop}
    (always : ∀ state, allowed state) (fuel : Nat) :
    monitored setup allowed fuel = withFuel setup fuel := by
  induction fuel with
  | zero => rfl
  | succ fuel induction =>
      rw [monitored, withFuel, induction, observedCall_of_always setup always, layerWith_runCall,
        Nested.observed_of_always always]

/-! ## Other limits -/

namespace State

theorem exceeded?_of_full {state : State} {bound : Nat} (full : bound ≤ state.calls.depth) :
    (state.withLimit (some bound)).calls.exceeded? = some bound := by
  rw [Calls.exceeded?, Option.filter_eq_some_iff]
  exact ⟨rfl, decide_eq_true full⟩

theorem exceeded?_of_room {state : State} {limit : Option Nat}
    (room : ∀ bound, limit = some bound → state.calls.depth < bound) :
    (state.withLimit limit).calls.exceeded? = none := by
  rw [Calls.exceeded?, Option.filter_eq_none_iff]
  intro bound limited
  have below : ¬ bound ≤ (state.withLimit limit).calls.depth :=
    Nat.not_le_of_lt (room bound limited)
  simpa using below

end State

/-- The outcome with another limit in the state that it leaves. -/
def Outcome.withLimit (limit : Option Nat) : Outcome α → Outcome α
  | .value result state => .value result (state.withLimit limit)
  | .failure raised state => .failure raised (state.withLimit limit)
  | .stopped reason => .stopped reason

/-- An evaluation that the limit has no part in. -/
def Evaluation.Unlimited (body : Evaluation α) : Prop :=
  ∀ state limit, body (state.withLimit limit) = (body state).withLimit limit

/-- Failures of the functions have nothing to do with the depth of calls. -/
def BuiltinTable.Ordinary (table : BuiltinTable) : Prop :=
  ∀ builtin ∈ table.functions, ∀ arguments heap output failure,
    (builtin.action arguments heap output).value = .error failure → failure.cause.Ordinary

theorem BuiltinTable.Ordinary.standard : BuiltinTable.standard.Ordinary := by
  intro builtin member arguments heap output failure failed
  rcases List.mem_pair.mp member with rfl | rfl
  · simp [Builtin.println, Builtin.write, Builtin.computed] at failed
  · simp [Builtin.print, Builtin.write, Builtin.computed] at failed

/-- The limits of two runs. -/
structure Regime where
  limit : Nat
  /-- The limit of the second run. -/
  more : Option Nat
  looser : ∀ bound, more = some bound → limit ≤ bound
  /-- Whether the second run is interrupted where more calls are active than the
  first may have. -/
  watched : Prop

namespace Regime

variable {regime : Regime}

def Allows (regime : Regime) (state : State) : Prop :=
  regime.watched → state.calls.depth ≤ regime.limit

theorem Allows.of_depth {state last : State} (allows : regime.Allows state)
    (shallower : last.calls.depth ≤ state.calls.depth) : regime.Allows last :=
  fun watched => shallower.trans (allows watched)

theorem Allows.of_entered {state last : State} (allows : regime.Allows state)
    (same : last.calls.entered = state.calls.entered) : regime.Allows last := by
  apply allows.of_depth
  have depths := congrArg (·.frames.size) same
  simpa [Calls.entered, Calls.depth] using depths.le

/-- An outcome that neither the observer nor the limit has a part in. -/
structure Fair (regime : Regime) (setup : Setup) (outcome : Outcome α) : Prop where
  uninterrupted : outcome ≠ .stopped .interrupted
  allows : ∀ last, outcome.state? = some last → regime.Allows last
  ordinary : regime.more = none → setup.builtins.Ordinary →
    ∀ raised, outcome.failure? = some raised → raised.cause.Ordinary

namespace Fair

variable {result : α} {raised : Failure} {last : State}

theorem value (allows : regime.Allows last) : regime.Fair setup (.value result last) := by
  refine ⟨nofun, ?_, nofun⟩
  intro state same
  rwa [← Option.some.inj same]

theorem failure (allows : regime.Allows last)
    (ordinary : regime.more = none → setup.builtins.Ordinary → raised.cause.Ordinary) :
    regime.Fair setup (.failure raised last : Outcome α) := by
  refine ⟨nofun, ?_, ?_⟩
  · intro state same
    rwa [← Option.some.inj same]
  · intro unbounded functions failure same
    rw [← Option.some.inj same]
    exact ordinary unbounded functions

theorem stopped {reason : Stop} (uninterrupted : reason ≠ .interrupted) :
    regime.Fair setup (.stopped reason : Outcome α) :=
  ⟨fun interrupted => uninterrupted (Outcome.stopped.inj interrupted), nofun, nofun⟩

theorem allows_value (fair : regime.Fair setup (.value result last)) : regime.Allows last :=
  fair.allows last rfl

theorem allows_failure (fair : regime.Fair setup (.failure raised last : Outcome α)) :
    regime.Allows last :=
  fair.allows last rfl

theorem ordinary_failure (fair : regime.Fair setup (.failure raised last : Outcome α))
    (unbounded : regime.more = none) (functions : setup.builtins.Ordinary) :
    raised.cause.Ordinary :=
  fair.ordinary unbounded functions raised rfl

theorem uninterrupted_stopped {reason : Stop}
    (fair : regime.Fair setup (.stopped reason : Outcome α)) : reason ≠ .interrupted := by
  rintro rfl
  exact fair.uninterrupted rfl

end Fair

/-- How the first run ends beside the second. -/
inductive Matches (regime : Regime) (setup : Setup) : Outcome α → Outcome α → Prop where
  /-- Only the first cannot go on. -/
  | cut {raised : Failure} {last : State} {second : Outcome α} :
      raised.cause = .stackOverflow regime.limit → regime.more ≠ some regime.limit →
      (regime.watched → second = .stopped .interrupted) →
      Matches regime setup (.failure raised last) second
  | same {outcome : Outcome α} : regime.Fair setup outcome →
      Matches regime setup (outcome.withLimit (some regime.limit))
        (outcome.withLimit regime.more)

/-- Under one limit both runs overflow. -/
theorem Matches.both {raised : Failure} {last : State}
    (equal : regime.more = some regime.limit) (allows : regime.Allows last) :
    regime.Matches setup (.failure raised (last.withLimit (some regime.limit)) : Outcome α)
      (.failure raised (last.withLimit (some regime.limit))) := by
  have fair : regime.Fair setup (.failure raised last : Outcome α) := by
    apply Fair.failure allows
    intro unbounded
    simp [unbounded] at equal
  have ended := Matches.same fair
  rw [equal] at ended
  exact ended

/-- Where there is no limit, an overflow of the first run is that of its limit. -/
theorem Matches.interrupted {raised : Failure} {last : State} {bound : Nat} {second : Outcome α}
    (matched : regime.Matches setup (.failure raised last) second) (unbounded : regime.more = none)
    (watched : regime.watched) (functions : setup.builtins.Ordinary)
    (overflow : raised.cause = .stackOverflow bound) : second = .stopped .interrupted := by
  generalize same : Outcome.failure raised last = first at matched
  cases matched with
  | cut _ _ interrupted => exact interrupted watched
  | @same outcome fair =>
      cases outcome with
      | value result state => simp [Outcome.withLimit] at same
      | failure failure state =>
          obtain ⟨rfl, _⟩ := Outcome.failure.inj same
          exact absurd overflow (fair.ordinary_failure unbounded functions bound)
      | stopped reason => simp [Outcome.withLimit] at same

/-- The observer interrupts only what the first run cannot do. -/
theorem Matches.overflows {first : Outcome α}
    (matched : regime.Matches setup first (.stopped .interrupted)) :
    ∃ raised last, first = .failure raised last ∧
      raised.cause = .stackOverflow regime.limit ∧ regime.more ≠ some regime.limit := by
  generalize same : Outcome.stopped .interrupted = second at matched
  cases matched with
  | cut overflow differs _ => exact ⟨_, _, rfl, overflow, differs⟩
  | @same outcome fair =>
      cases outcome with
      | value result state => simp [Outcome.withLimit] at same
      | failure failure state => simp [Outcome.withLimit] at same
      | stopped reason =>
          obtain rfl := Outcome.stopped.inj same
          exact absurd rfl fair.uninterrupted

end Regime

/-- The evaluations go the same way under the two limits. -/
def Evaluation.Parallel (regime : Regime) (setup : Setup) (first second : Evaluation α) : Prop :=
  ∀ state, regime.Allows state →
    regime.Matches setup (first (state.withLimit (some regime.limit)))
      (second (state.withLimit regime.more))

namespace Evaluation.Parallel

variable {regime : Regime} {extent : Extent}

theorem of_unlimited {body : Evaluation α} (unlimited : body.Unlimited)
    (keeps : body.Keeps extent)
    (ordinary : setup.builtins.Ordinary → body.FailsWith (·.cause.Ordinary)) :
    body.Parallel regime setup body := by
  intro state allows
  rw [unlimited, unlimited]
  apply Regime.Matches.same
  constructor
  · intro interrupted
    have ended := keeps state state rfl
    rw [interrupted] at ended
    exact ended rfl
  · intro last left
    exact allows.of_entered (keeps.of_state? left).calls
  · intro _ functions raised failed
    obtain ⟨last, outcome⟩ := Outcome.of_failure? failed
    exact (ordinary functions).blamed outcome

theorem literal (names : Interner) (id : ExpressionId) (value : Literal) :
    (Evaluation.literal names id value).Parallel regime setup
      (Evaluation.literal names id value) := by
  apply of_unlimited _ (.literal names id value) fun _ => .literal names id value
  intro state limit
  have same : (state.withLimit limit).literal? id = state.literal? id := rfl
  unfold Evaluation.literal
  rw [same]
  cases state.literal? id with
  | some address => rfl
  | none => rfl

theorem invokeBuiltin {text : String} {builtin : Builtin} (arguments : List Address)
    (found : setup.builtins.get? text = some builtin) :
    (Evaluation.invokeBuiltin builtin arguments).Parallel regime setup
      (Evaluation.invokeBuiltin builtin arguments) := by
  apply of_unlimited _ (.invokeBuiltin builtin arguments)
  · intro functions
    refine ⟨fun {start last raised} failed => ?_⟩
    unfold Evaluation.invokeBuiltin at failed
    cases ended : (builtin.invoke arguments start.heap start.output).value with
    | ok address => simp [ended] at failed
    | error failure =>
        simp only [ended] at failed
        obtain ⟨rfl, _⟩ := Outcome.failure.inj failed
        unfold Builtin.invoke at ended
        split at ended
        · exact functions builtin (List.mem_of_find?_eq_some found) _ _ _ _ ended
        · obtain rfl := Except.error.inj ended
          nofun
  · intro state limit
    unfold Evaluation.invokeBuiltin
    cases ended : (builtin.invoke arguments state.heap state.output).value with
    | ok address => simp only [State.withLimit, ended, Outcome.withLimit]
    | error failure => simp only [State.withLimit, ended, Outcome.withLimit]

theorem breakLoop : Evaluation.breakLoop.Parallel regime setup Evaluation.breakLoop := by
  apply of_unlimited _ .breakLoop
  · intro _
    refine ⟨fun {start last raised} failed => ?_⟩
    unfold Evaluation.breakLoop at failed
    split at failed
    · simp at failed
    · obtain ⟨rfl, _⟩ := Outcome.failure.inj failed
      nofun
  · intro state limit
    have same : (state.withLimit limit).loops.break? (state.withLimit limit).calls.loopBase =
      state.loops.break? state.calls.loopBase := rfl
    unfold Evaluation.breakLoop
    simp only [same]
    cases state.loops.break? state.calls.loopBase with
    | some loops => rfl
    | none => rfl

theorem continueLoop : Evaluation.continueLoop.Parallel regime setup Evaluation.continueLoop := by
  apply of_unlimited _ .continueLoop
  · intro _
    refine ⟨fun {start last raised} failed => ?_⟩
    unfold Evaluation.continueLoop at failed
    split at failed
    · simp at failed
    · obtain ⟨rfl, _⟩ := Outcome.failure.inj failed
      nofun
  · intro state limit
    have same : (state.withLimit limit).loops.innermost? (state.withLimit limit).calls.loopBase =
      state.loops.innermost? state.calls.loopBase := rfl
    unfold Evaluation.continueLoop
    simp only [same]
    cases state.loops.innermost? state.calls.loopBase with
    | some frame => rfl
    | none => rfl

theorem setResult (value : Address) :
    (Evaluation.setResult value).Parallel regime setup (Evaluation.setResult value) := by
  apply of_unlimited _ (.setResult value)
  · intro _
    refine ⟨fun {start last raised} failed => ?_⟩
    unfold Evaluation.setResult at failed
    split at failed
    · simp at failed
    · obtain ⟨rfl, _⟩ := Outcome.failure.inj failed
      nofun
  · intro state limit
    have same : (state.withLimit limit).calls.current? = state.calls.current? := rfl
    unfold Evaluation.setResult
    simp only [same]
    cases state.calls.current? with
    | some frame => rfl
    | none => rfl

theorem store (place : Place) (value : Address) :
    (Evaluation.store place value).Parallel regime setup (Evaluation.store place value) := by
  apply of_unlimited (fun _ _ => rfl) (.store place value)
  intro _
  refine ⟨fun {start last raised} failed => ?_⟩
  simp [Evaluation.store] at failed

theorem bind {first second : Evaluation α} {next next' : α → Evaluation β}
    (parallel : first.Parallel regime setup second)
    (rest : ∀ result, first.Gives result → (next result).Parallel regime setup (next' result)) :
    (first >>= next).Parallel regime setup (second >>= next') := by
  intro state allows
  have ended := parallel state allows
  rw [bind_run, bind_run]
  generalize left : first (state.withLimit (some regime.limit)) = outcome at ended
  generalize second (state.withLimit regime.more) = outcome' at ended
  cases ended with
  | cut overflow differs interrupted =>
      apply Regime.Matches.cut overflow differs
      intro watched
      rw [interrupted watched]
  | @same outcome fair =>
      cases outcome with
      | value result middle => exact rest result ⟨_, _, left⟩ middle fair.allows_value
      | failure raised last =>
          exact .same (.failure fair.allows_failure fair.ordinary_failure)
      | stopped reason => exact .same (.stopped fair.uninterrupted_stopped)

/-- What is done when an evaluation has ended, if it leaves failures failures and
does not look at the limit. -/
theorem finished {first second : Evaluation α} (parallel : first.Parallel regime setup second)
    (finish : Outcome α → Outcome β)
    (stopped : ∀ reason, finish (.stopped reason) = .stopped reason)
    (failed : ∀ raised last, ∃ raised' last', finish (.failure raised last) =
      .failure raised' last' ∧ raised'.cause = raised.cause ∧
        last'.calls.depth ≤ last.calls.depth)
    (unlimited : ∀ outcome limit, finish (outcome.withLimit limit) =
      (finish outcome).withLimit limit)
    (given : ∀ result last, regime.Allows last →
      regime.Fair setup (finish (.value result last))) :
    Parallel regime setup (fun state => finish (first state)) fun state =>
      finish (second state) := by
  intro state allows
  have ended := parallel state allows
  simp only
  generalize first (state.withLimit (some regime.limit)) = outcome at ended
  generalize second (state.withLimit regime.more) = outcome' at ended
  cases ended with
  | @cut raised last outcome overflow differs interrupted =>
      obtain ⟨raised', last', same, cause, _⟩ := failed raised last
      rw [same]
      apply Regime.Matches.cut (cause.trans overflow) differs
      intro watched
      rw [interrupted watched, stopped]
  | @same outcome fair =>
      rw [unlimited, unlimited]
      apply Regime.Matches.same
      cases outcome with
      | value result last => exact given result last fair.allows_value
      | failure raised last =>
          obtain ⟨raised', last', same, cause, shallower⟩ := failed raised last
          rw [same]
          apply Regime.Fair.failure (fair.allows_failure.of_depth shallower)
          rw [cause]
          exact fair.ordinary_failure
      | stopped reason =>
          rw [stopped]
          exact .stopped fair.uninterrupted_stopped

section

variable {first second : Evaluation α} (parallel : first.Parallel regime setup second)
include parallel

theorem located (span : Span) :
    (Evaluation.located span first).Parallel regime setup (Evaluation.located span second) := by
  apply parallel.finished fun outcome => Evaluation.located span (fun _ => outcome) {}
  · intro reason
    rfl
  · intro raised last
    exact ⟨_, _, rfl, rfl, le_rfl⟩
  · intro outcome limit
    cases outcome <;> rfl
  · intro result last allows
    exact .value allows

theorem ensuring (change : State → State)
    (unlimited : ∀ state limit, change (state.withLimit limit) = (change state).withLimit limit)
    (depth : ∀ state, (change state).calls.depth = state.calls.depth) :
    (Evaluation.ensuring first change).Parallel regime setup
      (Evaluation.ensuring second change) := by
  apply parallel.finished fun outcome => Evaluation.ensuring (fun _ => outcome) change {}
  · intro reason
    rfl
  · intro raised last
    exact ⟨_, _, rfl, rfl, (depth last).le⟩
  · intro outcome limit
    cases outcome with
    | value result last => exact congrArg (Outcome.value result) (unlimited last limit)
    | failure raised last => exact congrArg (Outcome.failure raised) (unlimited last limit)
    | stopped reason => rfl
  · intro result last allows
    exact .value (allows.of_depth (depth last).le)

theorem guarding (addresses : List Address) :
    (Evaluation.guarding addresses first).Parallel regime setup
      (Evaluation.guarding addresses second) := by
  apply parallel.finished fun outcome => Evaluation.guarding addresses (fun _ => outcome) {}
  · intro reason
    rfl
  · intro raised last
    exact ⟨_, _, rfl, rfl, le_rfl⟩
  · intro outcome limit
    cases outcome <;> rfl
  · intro result last allows
    exact .value allows

theorem inScope :
    (Evaluation.inScope first).Parallel regime setup (Evaluation.inScope second) := by
  intro state allows
  have popped := parallel.ensuring
    (fun state => (state.onStorage fun scopes heap => ((), scopes.pop heap)).2) (fun _ _ => rfl)
    (fun _ => rfl)
  exact popped { state with scopes := state.scopes.push } allows

theorem inLoop :
    (Evaluation.inLoop first).Parallel regime setup (Evaluation.inLoop second) := by
  intro state allows
  have popped := parallel.ensuring (fun state => { state with loops := state.loops.pop })
    (fun _ _ => rfl) (fun _ => rfl)
  exact popped { state with
    loops := state.loops.push { scopeDepth := state.scopes.depth } } allows

/-- The observer of the second evaluation has nothing against what both do. -/
theorem observed :
    first.Parallel regime setup (Evaluation.observed regime.Allows second) := by
  intro state allows
  have ended := parallel state allows
  have started : regime.Allows (state.withLimit regime.more) := allows
  rw [observed_run, if_pos started]
  generalize first (state.withLimit (some regime.limit)) = outcome at ended
  generalize second (state.withLimit regime.more) = outcome' at ended
  cases ended with
  | cut overflow differs interrupted =>
      apply Regime.Matches.cut overflow differs
      intro watched
      rw [interrupted watched]
  | @same outcome fair =>
      cases outcome with
      | value result last =>
          have left : regime.Allows (last.withLimit regime.more) := fair.allows_value
          simp only [Outcome.withLimit, if_pos left]
          exact .same (.value fair.allows_value)
      | failure raised last =>
          have left : regime.Allows (last.withLimit regime.more) := fair.allows_failure
          simp only [Outcome.withLimit, if_pos left]
          exact .same (.failure fair.allows_failure fair.ordinary_failure)
      | stopped reason => exact .same (.stopped fair.uninterrupted_stopped)

end

/-! ## Calls -/

/-- How a call ends whose body has ended. -/
def endCall (setup : Setup) : Outcome Unit → Outcome (Option Address)
  | .value () state => popCall state
  | .failure failure state => abandonCall setup failure state
  | .stopped reason => .stopped reason

theorem runCall {first second : Nested} {function : Function} {arguments : List Address}
    (parallel : (runBody first function arguments).Parallel regime setup
      (runBody second function arguments)) :
    (Evaluation.runCall setup first function arguments).Parallel regime setup
      (Evaluation.runCall setup second function arguments) := by
  have fewer : ∀ calls : Calls, calls.pop.depth ≤ calls.depth := by
    intro calls
    simp [Calls.pop, Calls.depth]
  apply parallel.finished (endCall setup)
  · intro reason
    rfl
  · intro raised last
    cases current : last.calls.current? with
    | none =>
        simp only [endCall, abandonCall, current]
        exact ⟨_, _, rfl, Calls.cause_attach _ _ _, le_rfl⟩
    | some frame =>
        simp only [endCall, abandonCall, current]
        exact ⟨_, _, rfl, Calls.cause_attach _ _ _, fewer last.calls⟩
  · intro outcome limit
    cases outcome with
    | value result state =>
        have same : (state.withLimit limit).calls.current? = state.calls.current? := rfl
        simp only [Outcome.withLimit, endCall, popCall, same]
        cases state.calls.current? with
        | none => rfl
        | some frame => rfl
    | failure failure state =>
        have same : (state.withLimit limit).calls.current? = state.calls.current? := rfl
        simp only [Outcome.withLimit, endCall, abandonCall, same]
        cases state.calls.current? with
        | none => rfl
        | some frame => rfl
    | stopped reason => rfl
  · intro result last allows
    have left : regime.Allows { last with calls := last.calls.pop } :=
      allows.of_depth (fewer last.calls)
    cases current : last.calls.current? with
    | none =>
        simp only [endCall, popCall, current]
        exact .value allows
    | some frame =>
        simp only [endCall, popCall, current]
        exact .value left

/-- A call that only the first run may not enter is interrupted in the second,
if that is watched. -/
theorem call {first second : Nested} (function : Function) (arguments : List Address)
    (callSite : Span)
    (parallel : (runBody first function arguments).Parallel regime setup
      (runBody second function arguments)) :
    (Evaluation.guarding arguments (enterCall setup function callSite) >>= fun _ =>
      Evaluation.runCall setup first function arguments).Parallel regime setup
      (Evaluation.guarding arguments (enterCall setup function callSite) >>= fun _ =>
        observedCall setup regime.Allows second function arguments) := by
  intro state allows
  rw [bind_run, bind_run, Evaluation.guarding, Evaluation.guarding, enterCall, enterCall]
  by_cases full : regime.limit ≤ state.calls.depth
  · simp only [State.exceeded?_of_full full]
    by_cases differs : regime.more = some regime.limit
    · rw [differs]
      simp only [State.exceeded?_of_full full]
      have allows' : regime.Allows (state.releaseAll arguments) := allows
      exact Regime.Matches.both differs allows'
    · apply Regime.Matches.cut (Calls.cause_attach _ _ _) differs
      intro watched
      have room : ∀ bound, regime.more = some bound → state.calls.depth < bound := by
        intro bound limited
        have higher := regime.looser bound limited
        have inside := allows watched
        have unequal : bound ≠ regime.limit := by
          rintro rfl
          exact differs limited
        omega
      simp only [State.exceeded?_of_room room, observedCall, observed_run]
      apply if_neg
      intro inside
      have deeper := inside watched
      simp only [Calls.push, Calls.depth, Array.size_push] at deeper full
      exact Nat.not_le_of_lt (Nat.lt_succ_of_le full) deeper
  · have space := Nat.lt_of_not_le full
    have room : ∀ bound, some regime.limit = some bound → state.calls.depth < bound := by
      intro bound same
      rwa [← Option.some.inj same]
    have room' : ∀ bound, regime.more = some bound → state.calls.depth < bound := by
      intro bound limited
      exact Nat.lt_of_lt_of_le space (regime.looser bound limited)
    simp only [State.exceeded?_of_room room, State.exceeded?_of_room room']
    apply parallel.runCall.observed { state with calls := state.calls.push _ }
    intro watched
    simpa [Calls.push, Calls.depth, Nat.succ_le_iff] using space

end Evaluation.Parallel

/-- Runs under two limits, the second of which is observed. -/
noncomputable def Coupling.parallel (setup : Setup) (regime : Regime) :
    Coupling setup (observedCall setup regime.Allows) where
  relates _ := Evaluation.Parallel regime setup
  curtails := False
  widen parallel := parallel
  loosen parallel := parallel
  pure result := .of_unlimited (fun _ _ => rfl) (.pure result) fun _ => .pure result
  fail cause ordinary := .of_unlimited (fun _ _ => rfl) (.fail cause) fun _ =>
    .fail cause ordinary
  stop uninterrupted := .of_unlimited (fun _ _ => rfl) (.stop uninterrupted) fun _ => .stop _
  exhausted _ never := never.elim
  read view unlimited := .of_unlimited
    (fun state limit => congrArg (Outcome.value · _) (unlimited state limit)) (.read view)
    fun _ => .read view
  onHeap {_ action} _ := .of_unlimited (fun _ _ => rfl) (.onHeap action) fun _ => .onHeap action
  literal := .literal setup.program.names
  store := .store
  builtin := .invokeBuiltin
  declare name value := .of_unlimited (fun _ _ => rfl) (.declare name value) fun _ =>
    .declare name value
  breakLoop := .breakLoop
  continueLoop := .continueLoop
  setResult := .setResult
  bind := .bind
  located span parallel := parallel.located span
  holding _ parallel := parallel.ensuring _ (fun _ _ => rfl) fun _ => rfl
  guarding addresses parallel := parallel.guarding addresses
  inScope parallel := parallel.inScope
  inLoop parallel := parallel.inLoop
  call function arguments callSite parallel := .call function arguments callSite parallel

theorem Nested.withFuel_parallel (setup : Setup) (regime : Regime) (fuel : Nat) :
    (withFuel setup fuel).Related (.parallel setup regime)
      (monitored setup regime.Allows fuel) := by
  have observed : ∀ {α : Type} {extent : Extent} {body body' : Evaluation α},
      body.Related (.parallel setup regime) extent body' →
        body.Related (.parallel setup regime) extent
          (Evaluation.observed regime.Allows body') :=
    fun parallel => Evaluation.Parallel.observed parallel
  induction fuel with
  | zero =>
      exact ⟨⟨fun _ => .outOfFuel, fun _ => .outOfFuel, fun _ => .outOfFuel⟩, fun _ => .outOfFuel,
        Or.inl rfl⟩
  | succ fuel induction =>
      have layered := induction.layer
        (Or.inl rfl : (Coupling.parallel setup regime).Shortens fuel fuel)
      exact ⟨⟨fun id => observed (layered.operands.evaluate id),
        fun id => observed (layered.operands.share id),
        fun id => observed (layered.operands.target id)⟩,
        fun id => observed (layered.execute id), Or.inl rfl⟩

end ScriptEngine
