import ScriptEngine.Proofs.Control.Stacks

/-!
# Backtraces

A failure that leaves a call takes along the calls that are active there.  To
say that these are the calls that were active where it was raised, evaluators
are made to note them there: at the innermost node that fails.  The evaluator
that notes does what the other one does, and the notes of both agree.
-/

namespace ScriptEngine

open Evaluation

variable {α β : Type}

/-! ## Notes -/

/-- The failure with a note of the calls that are active, unless it has one. -/
def Failure.note (failure : Failure) (calls : Calls) (names : Interner) : Failure :=
  { failure with backtrace := failure.backtrace <|> some (calls.backtrace names) }

def Outcome.noted (names : Interner) : Outcome α → Outcome α
  | .value result state => .value result state
  | .failure raised state => .failure (raised.note state.calls names) state
  | .stopped reason => .stopped reason

/-- Note on failures which calls are active where the evaluation fails. -/
def Evaluation.noting (names : Interner) (body : Evaluation α) : Evaluation α :=
  fun state => (body state).noted names

namespace Nested

def noting (names : Interner) (nested : Nested) : Nested where
  evaluate id := Evaluation.noting names (nested.evaluate id)
  share id := Evaluation.noting names (nested.share id)
  target id := Evaluation.noting names (nested.target id)
  execute id := Evaluation.noting names (nested.execute id)
  iterations := nested.iterations

/-- The evaluator of which every node notes the calls that are active where it
fails, so that the note of a failure is that of the innermost node. -/
def recording (setup : Setup) : Nat → Nested
  | 0 => exhausted
  | fuel + 1 => noting setup.program.names (layer setup (fun () => recording setup fuel) fuel)

end Nested

namespace Failure

variable {names : Interner}

theorem note_note (failure : Failure) (first second : Calls) :
    (failure.note first names).note second names = failure.note first names := by
  unfold note
  cases failure.backtrace with
  | some backtrace => rfl
  | none => rfl

theorem note_locate (failure : Failure) (calls : Calls) (span : Span) :
    (failure.locate span).note calls names = (failure.note calls names).locate span := rfl

/-- What a failure takes along when it leaves a call is a note. -/
theorem attach_eq_note {calls : Calls} {frame : CallFrame} (current : calls.current? = some frame)
    (failure : Failure) : calls.attach names failure = failure.note calls names := by
  have nonempty : (calls.backtrace names).calls.isEmpty = false := by
    obtain ⟨others, split⟩ := Array.back?_eq_some_iff.mp current
    simp [Calls.backtrace, split]
  obtain ⟨cause, span, backtrace⟩ := failure
  unfold Calls.attach attach withBacktrace note
  cases backtrace with
  | some backtrace => simp
  | none => simp [nonempty]

theorem attach_outside {calls : Calls} (outside : calls.current? = none) (failure : Failure) :
    calls.attach names failure = failure := by
  have empty : calls.frames = #[] := Array.back?_eq_none_iff.mp outside
  simp [Calls.attach, attach, Calls.backtrace, empty]

/-- Where a note is made anyway, nothing is left of leaving a call. -/
theorem note_attach (calls : Calls) (failure : Failure) :
    (calls.attach names failure).note calls names = failure.note calls names := by
  cases current : calls.current? with
  | none => rw [attach_outside current]
  | some frame => rw [attach_eq_note current, note_note]

end Failure

/-! ## Evaluations that agree but for their notes -/

/-- The same outcomes, with the same notes once a note is made. -/
def Evaluation.Agrees (names : Interner) (first second : Evaluation α) : Prop :=
  ∀ state, (first state).noted names = (second state).noted names

theorem Outcome.eq_or_failures {names : Interner} {first second : Outcome α}
    (agree : first.noted names = second.noted names) :
    first = second ∨
      ∃ failure failure' state, first = .failure failure state ∧
        second = .failure failure' state ∧
        failure.note state.calls names = failure'.note state.calls names := by
  cases first with
  | value result state =>
      cases second with
      | value result' state' => exact Or.inl agree
      | failure failure' state' => simp [noted] at agree
      | stopped reason => simp [noted] at agree
  | failure failure state =>
      cases second with
      | value result' state' => simp [noted] at agree
      | failure failure' state' =>
          simp only [noted, Outcome.failure.injEq] at agree
          obtain ⟨same, rfl⟩ := agree
          exact Or.inr ⟨failure, failure', state, rfl, rfl, same⟩
      | stopped reason => simp [noted] at agree
  | stopped reason =>
      cases second with
      | value result' state' => simp [noted] at agree
      | failure failure' state' => simp [noted] at agree
      | stopped reason' => exact Or.inl agree

namespace Evaluation.Agrees

variable {names : Interner} {first second : Evaluation α}

theorem refl (body : Evaluation α) : body.Agrees names body :=
  fun _ => rfl

theorem bind {next next' : α → Evaluation β} (agrees : first.Agrees names second)
    (rest : ∀ result, first.Gives result → (next result).Agrees names (next' result)) :
    (first >>= next).Agrees names (second >>= next') := by
  intro state
  rw [bind_run, bind_run]
  rcases Outcome.eq_or_failures (agrees state) with same | ⟨failure, failure', last, left, right, same⟩
  · rw [← same]
    cases outcome : first state with
    | value result middle => exact rest result ⟨state, middle, outcome⟩ middle
    | failure failure last => rfl
    | stopped reason => rfl
  · rw [left, right]
    simp only [Outcome.noted, same]

variable (agrees : first.Agrees names second)
include agrees

theorem located (span : Span) :
    (Evaluation.located span first).Agrees names (Evaluation.located span second) := by
  intro state
  unfold Evaluation.located
  rcases Outcome.eq_or_failures (agrees state) with same | ⟨failure, failure', last, left, right, same⟩
  · rw [same]
  · rw [left, right]
    simp only [Outcome.noted, Failure.note_locate, same]

theorem ensuring (change : State → State) (kept : ∀ state, (change state).calls = state.calls) :
    (Evaluation.ensuring first change).Agrees names (Evaluation.ensuring second change) := by
  intro state
  unfold Evaluation.ensuring
  rcases Outcome.eq_or_failures (agrees state) with same | ⟨failure, failure', last, left, right, same⟩
  · rw [same]
  · rw [left, right]
    simp only [Outcome.noted, kept, same]

theorem guarding (addresses : List Address) :
    (Evaluation.guarding addresses first).Agrees names
      (Evaluation.guarding addresses second) := by
  intro state
  unfold Evaluation.guarding
  rcases Outcome.eq_or_failures (agrees state) with same | ⟨failure, failure', last, left, right, same⟩
  · rw [same]
  · rw [left, right]
    simp only [Outcome.noted, State.releaseAll_eq, same]

theorem inScope : (Evaluation.inScope first).Agrees names (Evaluation.inScope second) := by
  intro state
  apply agrees.ensuring
  intro inner
  rfl

theorem inLoop : (Evaluation.inLoop first).Agrees names (Evaluation.inLoop second) := by
  intro state
  apply agrees.ensuring
  intro inner
  rfl

theorem noting : (Evaluation.noting names first).Agrees names second := by
  intro state
  rw [← agrees state]
  unfold Evaluation.noting
  cases first state with
  | value result last => rfl
  | failure failure last => simp only [Outcome.noted, Failure.note_note]
  | stopped reason => rfl

end Evaluation.Agrees

/-- Leaving a call makes the note that is made anyway, if none is made inside. -/
theorem Evaluation.Agrees.runCall {setup : Setup} {first second : Nested} {function : Function}
    {arguments : List Address}
    (agrees : (runBody first function arguments).Agrees setup.program.names
      (runBody second function arguments)) :
    (Evaluation.runCall setup first function arguments).Agrees setup.program.names
      (Evaluation.runCall setup second function arguments) := by
  intro state
  unfold Evaluation.runCall
  rcases Outcome.eq_or_failures (agrees state) with same | ⟨failure, failure', last, left, right, same⟩
  · rw [same]
  · rw [left, right]
    unfold abandonCall
    cases current : last.calls.current? with
    | none =>
        simp only [current, Outcome.noted, Failure.attach_outside current, same]
    | some frame =>
        simp only [current, Failure.attach_eq_note current, same]

/-- Evaluations that do the same but for when calls are noted. -/
def Coupling.agreeing (setup : Setup) : Coupling setup where
  relates _ := Evaluation.Agrees setup.program.names
  curtails := False
  widen agrees := agrees
  loosen agrees := agrees
  pure _ := .refl _
  fail _ _ := .refl _
  stop _ := .refl _
  exhausted _ never := never.elim
  read _ _ := .refl _
  onHeap _ := .refl _
  literal _ _ := .refl _
  store _ _ := .refl _
  builtin _ _ := .refl _
  declare _ _ := .refl _
  breakLoop := .refl _
  continueLoop := .refl _
  setResult _ := .refl _
  bind := .bind
  located span agrees := agrees.located span
  holding _ agrees := agrees.ensuring _ fun _ => rfl
  guarding addresses agrees := agrees.guarding addresses
  inScope agrees := agrees.inScope
  inLoop agrees := agrees.inLoop
  call _ _ _ agrees := .bind (.refl _) fun _ _ => .runCall agrees

/-- What a coupling says of the evaluator it says of the one that makes notes,
if making a note does not matter to it. -/
theorem Nested.recording_related {setup : Setup} (coupling : Coupling setup)
    (notes : ∀ {α : Type} {extent : Extent} {first second : Evaluation α},
      first.Related coupling extent second →
        (Evaluation.noting setup.program.names first).Related coupling extent second)
    (fuel : Nat) : (recording setup fuel).Related coupling (withFuel setup fuel) := by
  induction fuel with
  | zero =>
      exact ⟨⟨fun _ => .outOfFuel, fun _ => .outOfFuel, fun _ => .outOfFuel⟩, fun _ => .outOfFuel,
        Or.inl rfl⟩
  | succ fuel induction =>
      have layered := induction.layer (Or.inl rfl : coupling.Shortens fuel fuel)
      exact ⟨⟨fun id => notes (layered.operands.evaluate id),
        fun id => notes (layered.operands.share id), fun id => notes (layered.operands.target id)⟩,
        fun id => notes (layered.execute id), Or.inl rfl⟩

/-! ## What backtraces can look like -/

/-- No more calls are active than the limit allows. -/
structure Calls.Within (limit : Option Nat) (calls : Calls) : Prop where
  limited : calls.limit = limit
  below : ∀ bound, limit = some bound → calls.depth ≤ bound

namespace Calls

variable {limit : Option Nat} {before after : Calls}

theorem depth_entered (calls : Calls) : calls.entered.depth = calls.depth := by
  simp [entered, depth]

theorem backtrace_entered (calls : Calls) (names : Interner) :
    calls.entered.backtrace names = calls.backtrace names := by
  simp [entered, backtrace, CallFrame.entered]

theorem length_backtrace (calls : Calls) (names : Interner) :
    (calls.backtrace names).calls.length = calls.depth := by
  simp [backtrace, depth]

theorem backtrace_push (calls : Calls) (frame : CallFrame) (names : Interner) :
    ((calls.push frame).backtrace names).calls =
      ⟨names.lookup frame.function, frame.callSite⟩ :: (calls.backtrace names).calls := by
  simp [backtrace, push]

theorem Within.of_entered (within : before.Within limit) (same : after.entered = before.entered) :
    after.Within limit := by
  constructor
  · exact (congrArg Calls.limit same).trans within.limited
  · intro bound limited
    rw [← depth_entered, same, depth_entered]
    exact within.below bound limited

/-- There is room for a call that does not exceed the limit. -/
theorem Within.push (within : before.Within limit) (room : before.exceeded? = none)
    (frame : CallFrame) : (before.push frame).Within limit := by
  constructor
  · exact within.limited
  · intro bound limited
    have below : before.depth < bound := by
      simpa [exceeded?, within.limited, limited] using room
    simpa [Calls.push, depth, Nat.succ_le_iff] using below

end Calls

/-- The backtrace of the failure with which an evaluation ends. -/
def Outcome.backtrace? : Outcome α → Option Backtrace
  | .value _ _ => none
  | .failure raised _ => raised.backtrace
  | .stopped _ => none

/-- From a state within the limit, an evaluation ends with no backtrace or with
one that is accepted. -/
structure Evaluation.Traces (limit : Option Nat) (accepts : Backtrace → Prop) (extent : Extent)
    (body : Evaluation α) : Prop where
  keeps : body.Keeps extent
  accepted : ∀ start : State, start.calls.Within limit →
    ∀ backtrace ∈ (body start).backtrace?, accepts backtrace

/-- The failures of the functions say nothing of calls. -/
def BuiltinTable.Untraced (table : BuiltinTable) : Prop :=
  ∀ builtin ∈ table.functions, ∀ arguments heap output failure,
    (builtin.action arguments heap output).value = .error failure → failure.backtrace = none

namespace Evaluation

variable {limit : Option Nat} {accepts : Backtrace → Prop} {extent : Extent} {body : Evaluation α}

theorem backtrace?_located (span : Span) (body : Evaluation α) (state : State) :
    (located span body state).backtrace? = (body state).backtrace? := by
  unfold located
  cases body state with
  | value result last => rfl
  | failure failure last => rfl
  | stopped reason => rfl

theorem backtrace?_ensuring (body : Evaluation α) (change : State → State) (state : State) :
    (ensuring body change state).backtrace? = (body state).backtrace? := by
  unfold ensuring
  cases body state with
  | value result last => rfl
  | failure failure last => rfl
  | stopped reason => rfl

theorem backtrace?_guarding (addresses : List Address) (body : Evaluation α) (state : State) :
    (guarding addresses body state).backtrace? = (body state).backtrace? := by
  unfold guarding
  cases body state with
  | value result last => rfl
  | failure failure last => rfl
  | stopped reason => rfl

namespace Traces

/-- Evaluations whose failures are all their own. -/
theorem of_untraced (keeps : body.Keeps extent)
    (untraced : ∀ start, (body start).backtrace? = none) : body.Traces limit accepts extent where
  keeps := keeps
  accepted start within backtrace member := by
    rw [untraced] at member
    simp at member

theorem bind {next : α → Evaluation β} (traces : body.Traces limit accepts extent)
    (rest : ∀ result, body.Gives result → (next result).Traces limit accepts extent) :
    (body >>= next).Traces limit accepts extent where
  keeps := traces.keeps.bind fun result given => (rest result given).keeps
  accepted start within backtrace member := by
    have accepted := traces.accepted start within backtrace
    rw [bind_run] at member
    cases outcome : body start with
    | value result middle =>
        rw [outcome] at member
        have kept := traces.keeps.of_value outcome
        exact (rest result ⟨start, middle, outcome⟩).accepted middle
          (within.of_entered kept.calls) backtrace member
    | failure raised middle =>
        rw [outcome] at member accepted
        exact accepted member
    | stopped reason =>
        rw [outcome] at member
        simp [Outcome.backtrace?] at member

theorem invokeBuiltin {table : BuiltinTable} {text : String} {builtin : Builtin}
    (untraced : table.Untraced) (arguments : List Address)
    (found : table.get? text = some builtin) :
    (Evaluation.invokeBuiltin builtin arguments).Traces limit accepts .expression := by
  apply of_untraced (.invokeBuiltin builtin arguments)
  intro start
  unfold Evaluation.invokeBuiltin
  cases ended : (builtin.invoke arguments start.heap start.output).value with
  | ok address =>
      simp only [ended]
      rfl
  | error raised =>
      simp only [ended]
      unfold Builtin.invoke at ended
      split at ended
      · exact untraced builtin (List.mem_of_find?_eq_some found) _ _ _ _ ended
      · obtain rfl := Except.error.inj ended
        rfl

theorem literal (names : Interner) (id : ExpressionId) (value : Literal) :
    (Evaluation.literal names id value).Traces limit accepts .expression := by
  apply of_untraced (.literal names id value)
  intro start
  unfold Evaluation.literal
  cases start.literal? id with
  | some address => rfl
  | none => rfl

theorem breakLoop : Evaluation.breakLoop.Traces limit accepts .expression := by
  apply of_untraced .breakLoop
  intro start
  unfold Evaluation.breakLoop
  cases start.loops.break? start.calls.loopBase with
  | some loops => rfl
  | none => rfl

theorem continueLoop : Evaluation.continueLoop.Traces limit accepts .block := by
  apply of_untraced .continueLoop
  intro start
  unfold Evaluation.continueLoop
  cases start.loops.innermost? start.calls.loopBase with
  | some frame => rfl
  | none => rfl

theorem setResult (value : Address) :
    (Evaluation.setResult value).Traces limit accepts .expression := by
  apply of_untraced (.setResult value)
  intro start
  unfold Evaluation.setResult
  cases start.calls.current? with
  | some frame => rfl
  | none => rfl

theorem located (traces : body.Traces limit accepts extent) (span : Span) :
    (Evaluation.located span body).Traces limit accepts extent where
  keeps := traces.keeps.located span
  accepted start within := by
    rw [backtrace?_located]
    exact traces.accepted start within

theorem holding (traces : body.Traces limit accepts extent) (addresses : List Address) :
    (Evaluation.holding addresses body).Traces limit accepts extent where
  keeps := traces.keeps.holding addresses
  accepted start within := by
    rw [Evaluation.holding, backtrace?_ensuring]
    exact traces.accepted start within

theorem guarding (traces : body.Traces limit accepts extent) (addresses : List Address) :
    (Evaluation.guarding addresses body).Traces limit accepts extent where
  keeps := traces.keeps.guarding addresses
  accepted start within := by
    rw [backtrace?_guarding]
    exact traces.accepted start within

theorem inScope (traces : body.Traces limit accepts .statement) :
    (Evaluation.inScope body).Traces limit accepts .block where
  keeps := traces.keeps.inScope
  accepted start within := by
    rw [Evaluation.inScope, backtrace?_ensuring]
    exact traces.accepted _ within

theorem inLoop (traces : body.Traces limit accepts .block) :
    (Evaluation.inLoop body).Traces limit accepts .expression where
  keeps := traces.keeps.inLoop
  accepted start within := by
    rw [Evaluation.inLoop, backtrace?_ensuring]
    exact traces.accepted _ within

/-- Backtraces of calls that do not exceed the limit, at any moment. -/
def Covers (accepts : Backtrace → Prop) (limit : Option Nat) (names : Interner) : Prop :=
  ∀ (calls : Calls) (frame : CallFrame), calls.Within limit → calls.current? = some frame →
    accepts (calls.backtrace names)

/-- What a failure takes along from a state within the limit. -/
theorem accepted_attach {calls : Calls} {names : Interner} {failure : Failure}
    (covers : Covers accepts limit names) (within : calls.Within limit)
    (accepted : ∀ backtrace ∈ failure.backtrace, accepts backtrace) :
    ∀ backtrace ∈ (calls.attach names failure).backtrace, accepts backtrace := by
  intro backtrace member
  cases current : calls.current? with
  | none =>
      rw [Failure.attach_outside current] at member
      exact accepted backtrace member
  | some frame =>
      rw [Failure.attach_eq_note current, Failure.note] at member
      cases known : failure.backtrace with
      | some noted =>
          apply accepted
          simpa [known] using member
      | none =>
          have taken : calls.backtrace names = backtrace := by simpa [known] using member
          rw [← taken]
          exact covers calls frame within current

variable {setup : Setup} {nested : Nested}

theorem runCall {function : Function} {arguments : List Address}
    (covers : Covers accepts limit setup.program.names)
    (traces : (runBody nested function arguments).Traces limit accepts .block) (start : State)
    (within : start.calls.Within limit) :
    ∀ backtrace ∈ (Evaluation.runCall setup nested function arguments start).backtrace?,
      accepts backtrace := by
  intro backtrace member
  have accepted := traces.accepted start within
  unfold Evaluation.runCall at member
  cases outcome : runBody nested function arguments start with
  | value result inner =>
      simp only [outcome, popCall] at member
      split at member
      · simp [Outcome.backtrace?] at member
      · simp [Outcome.backtrace?] at member
  | failure raised inner =>
      rw [outcome] at accepted
      have kept := traces.keeps.of_failure outcome
      apply accepted_attach covers (within.of_entered kept.calls) accepted backtrace
      simp only [outcome, abandonCall] at member
      split at member
      · exact member
      · exact member
  | stopped reason =>
      rw [outcome] at member
      simp [Outcome.backtrace?] at member

theorem call {function : Function} {arguments : List Address} (callSite : Span)
    (covers : Covers accepts limit setup.program.names)
    (traces : (runBody nested function arguments).Traces limit accepts .block) :
    (Evaluation.guarding arguments (enterCall setup function callSite) >>= fun _ =>
      Evaluation.runCall setup nested function arguments).Traces limit accepts .expression where
  keeps := .call callSite traces.keeps
  accepted start within backtrace member := by
    rw [bind_run, Evaluation.guarding, enterCall] at member
    cases room : start.calls.exceeded? with
    | some bound =>
        simp only [room] at member
        exact accepted_attach covers within (by simp [Failure.of, Failure.locate]) backtrace member
    | none =>
        simp only [room] at member
        exact runCall covers traces _ (within.push room _) backtrace member

end Traces

end Evaluation

/-- What backtraces the first evaluator can give, whatever the other one does. -/
def Coupling.tracing (setup : Setup) (limit : Option Nat) (accepts : Backtrace → Prop)
    (untraced : setup.builtins.Untraced)
    (covers : Traces.Covers accepts limit setup.program.names) : Coupling setup where
  relates extent first _ := first.Traces limit accepts extent
  curtails := False
  widen traces := ⟨traces.keeps.widen, traces.accepted⟩
  loosen traces := ⟨traces.keeps.loosen, traces.accepted⟩
  pure result := .of_untraced (.pure result) fun _ => rfl
  fail cause _ := .of_untraced (.fail cause) fun _ => rfl
  stop uninterrupted := .of_untraced (.stop uninterrupted) fun _ => rfl
  exhausted _ never := never.elim
  read view _ := .of_untraced (.read view) fun _ => rfl
  onHeap {_ action} _ := .of_untraced (.onHeap action) fun _ => rfl
  literal := .literal setup.program.names
  store place value := .of_untraced (.store place value) fun _ => rfl
  builtin arguments found := .invokeBuiltin untraced arguments found
  declare name value := .of_untraced (.declare name value) fun _ => rfl
  breakLoop := .breakLoop
  continueLoop := .continueLoop
  setResult := .setResult
  bind := .bind
  located span traces := traces.located span
  holding addresses traces := traces.holding addresses
  guarding addresses traces := traces.guarding addresses
  inScope := .inScope
  inLoop := .inLoop
  call _ _ callSite traces := .call callSite covers traces

/-! ## What the notes say -/

theorem Evaluation.Keeps.noting {extent : Extent} {body : Evaluation α} (names : Interner)
    (keeps : body.Keeps extent) : (Evaluation.noting names body).Keeps extent := by
  intro start state same
  have held := keeps start state same
  unfold Evaluation.noting
  cases outcome : body state with
  | value result last =>
      rw [outcome] at held
      exact held
  | failure raised last =>
      rw [outcome] at held
      exact held
  | stopped reason =>
      rw [outcome] at held
      exact held

namespace Nested

variable {setup : Setup}

theorem recording_agrees (setup : Setup) (fuel : Nat) :
    (recording setup fuel).Related (.agreeing setup) (withFuel setup fuel) :=
  recording_related (.agreeing setup) (fun agrees => Agrees.noting agrees) fuel

theorem recording_keeps (setup : Setup) (fuel : Nat) :
    (recording setup fuel).Related (.keeping setup) (withFuel setup fuel) :=
  recording_related (.keeping setup) (fun keeps => Keeps.noting _ keeps) fuel

end Nested

end ScriptEngine
