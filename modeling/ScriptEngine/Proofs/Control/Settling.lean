import ScriptEngine.Proofs.Control.Causes
import ScriptEngine.Proofs.Control.Failures
import ScriptEngine.Proofs.Source.Construction

/-!
# Evaluations that settle

An evaluation for each amount of fuel settles if, wherever it starts, it comes
to one outcome that no more fuel changes, and that is as the terms say: it
leads to a state like those it may start in, stops only where it may, and fails
for lack of a type only where a built-in function says so.  Operations on values
settle at once, so that a node whose types are recorded settles if the nodes
inside it do.  Loops and the bodies of calls are left to those who know why
they end.
-/

namespace ScriptEngine

variable {α β : Type}

/-! ## Failures for lack of a type -/

/-- Some function fails for the cause. -/
def BuiltinTable.Raises (table : BuiltinTable) (cause : Cause) : Prop :=
  ∃ builtin ∈ table.functions, ∃ arguments heap output failure,
    (builtin.action arguments heap output).value = .error failure ∧ failure.cause = cause

/-- A failure that no missing type is to blame for, unless a built-in function
says so. -/
def Failure.Typed (table : BuiltinTable) (failure : Failure) : Prop :=
  ∀ node, failure.cause = .missingType node → table.Raises (.missingType node)

theorem Cause.Operational.typed {cause : Cause} (operational : cause.Operational)
    (table : BuiltinTable) : (Failure.of cause).Typed table := by
  rintro node rfl
  exact operational.elim

/-! ## Terms -/

/-- Between which states evaluations lead, and what may stop them.  States are
told apart by the calls alone. -/
structure Terms where
  builtins : BuiltinTable
  holds : State → Prop
  stops : Stop → Prop
  steady : ∀ {before after : State}, holds before →
    after.calls.depth = before.calls.depth → after.calls.limit = before.calls.limit → holds after

/-- An outcome that is as the terms say. -/
def Outcome.Meets (terms : Terms) : Outcome α → Prop
  | .value _ last => terms.holds last
  | .failure raised last => raised.Typed terms.builtins ∧ terms.holds last
  | .stopped reason => terms.stops reason

/-- With enough fuel the outcome is one that meets the terms. -/
def Evaluation.SettlesFrom (terms : Terms) (start : State) (body : Nat → Evaluation α) : Prop :=
  ∃ outcome : Outcome α, outcome.Meets terms ∧
    ∃ fuel, ∀ more, fuel ≤ more → body more start = outcome

/-- The evaluation settles wherever the terms let it start. -/
def Evaluation.Settles (terms : Terms) (body : Nat → Evaluation α) : Prop :=
  ∀ start, terms.holds start → SettlesFrom terms start body

/-! ## Rules -/

namespace Evaluation.SettlesFrom

variable {terms : Terms} {start : State} {body body' : Nat → Evaluation α}

/-- Only what is done with enough fuel matters. -/
theorem congr (settles : SettlesFrom terms start body) {enough : Nat}
    (same : ∀ fuel, enough ≤ fuel → body' fuel start = body fuel start) :
    SettlesFrom terms start body' := by
  obtain ⟨outcome, meets, fuel, settled⟩ := settles
  refine ⟨outcome, meets, max fuel enough, ?_⟩
  intro more large
  rw [same more (le_trans (le_max_right _ _) large)]
  exact settled more (le_trans (le_max_left _ _) large)

/-- What comes after only has to settle where the first evaluation can end. -/
theorem bind {next : Nat → α → Evaluation β} (settles : SettlesFrom terms start body)
    (rest : ∀ result middle, terms.holds middle →
      (∃ fuel, body fuel start = .value result middle) →
        SettlesFrom terms middle fun fuel => next fuel result) :
    SettlesFrom terms start fun fuel => body fuel >>= next fuel := by
  obtain ⟨outcome, meets, fuel, settled⟩ := settles
  cases outcome with
  | value result middle =>
      obtain ⟨last, ends, enough, goes⟩ := rest result middle meets ⟨fuel, settled fuel le_rfl⟩
      refine ⟨last, ends, max fuel enough, ?_⟩
      intro more large
      simp only [bind_run, settled more (le_trans (le_max_left _ _) large)]
      exact goes more (le_trans (le_max_right _ _) large)
  | failure failure middle =>
      refine ⟨.failure failure middle, meets, fuel, ?_⟩
      intro more large
      simp only [bind_run, settled more large]
  | stopped reason =>
      refine ⟨.stopped reason, meets, fuel, ?_⟩
      intro more large
      simp only [bind_run, settled more large]

theorem located (settles : SettlesFrom terms start body) (span : Span) :
    SettlesFrom terms start fun fuel => Evaluation.located span (body fuel) := by
  obtain ⟨outcome, meets, fuel, settled⟩ := settles
  cases outcome with
  | value result last =>
      refine ⟨.value result last, meets, fuel, ?_⟩
      intro more large
      simp only [Evaluation.located, settled more large]
  | failure failure last =>
      refine ⟨.failure (failure.locate span) last, meets, fuel, ?_⟩
      intro more large
      simp only [Evaluation.located, settled more large]
  | stopped reason =>
      refine ⟨.stopped reason, meets, fuel, ?_⟩
      intro more large
      simp only [Evaluation.located, settled more large]

theorem guarding (settles : SettlesFrom terms start body) (addresses : List Address) :
    SettlesFrom terms start fun fuel => Evaluation.guarding addresses (body fuel) := by
  obtain ⟨outcome, meets, fuel, settled⟩ := settles
  cases outcome with
  | value result last =>
      refine ⟨.value result last, meets, fuel, ?_⟩
      intro more large
      simp only [Evaluation.guarding, settled more large]
  | failure failure last =>
      refine ⟨.failure failure (last.releaseAll addresses),
        ⟨meets.1, terms.steady meets.2 rfl rfl⟩, fuel, ?_⟩
      intro more large
      simp only [Evaluation.guarding, settled more large]
  | stopped reason =>
      refine ⟨.stopped reason, meets, fuel, ?_⟩
      intro more large
      simp only [Evaluation.guarding, settled more large]

/-- Frames that come and go around an evaluation. -/
theorem framed {enter leave : State → State} (settles : SettlesFrom terms (enter start) body)
    (leaves : ∀ state, (leave state).calls = state.calls) :
    SettlesFrom terms start fun fuel start =>
      Evaluation.ensuring (body fuel) leave (enter start) := by
  have left : ∀ {state}, terms.holds state → terms.holds (leave state) :=
    fun held => terms.steady held (by rw [leaves]) (by rw [leaves])
  obtain ⟨outcome, meets, fuel, settled⟩ := settles
  cases outcome with
  | value result last =>
      refine ⟨.value result (leave last), left meets, fuel, ?_⟩
      intro more large
      simp only [Evaluation.ensuring, settled more large]
  | failure failure last =>
      refine ⟨.failure failure (leave last), ⟨meets.1, left meets.2⟩, fuel, ?_⟩
      intro more large
      simp only [Evaluation.ensuring, settled more large]
  | stopped reason =>
      refine ⟨.stopped reason, meets, fuel, ?_⟩
      intro more large
      simp only [Evaluation.ensuring, settled more large]

theorem holding (settles : SettlesFrom terms start body) (addresses : List Address) :
    SettlesFrom terms start fun fuel => Evaluation.holding addresses (body fuel) :=
  @framed _ _ _ _ id (·.releaseAll addresses) settles fun _ => rfl

theorem inLoop
    (settles : SettlesFrom terms
      { start with loops := start.loops.push { scopeDepth := start.scopes.depth } } body) :
    SettlesFrom terms start fun fuel => Evaluation.inLoop (body fuel) :=
  @framed _ _ _ _ (fun state =>
    { state with loops := state.loops.push { scopeDepth := state.scopes.depth } })
    (fun state => { state with loops := state.loops.pop }) settles fun _ => rfl

end Evaluation.SettlesFrom

namespace Evaluation.Settles

variable {terms : Terms} {setup : Setup}

/-- What does not depend on fuel. -/
theorem fixed {body : Evaluation α}
    (meets : ∀ start, terms.holds start → (body start).Meets terms) :
    Settles terms fun _ => body :=
  fun start holds => ⟨body start, meets start holds, 0, fun _ _ => rfl⟩

/-- The fuel that one step takes. -/
theorem succ {body : Nat → Evaluation α} (settles : Settles terms fun fuel => body (fuel + 1)) :
    Settles terms body := by
  intro start holds
  obtain ⟨outcome, meets, fuel, settled⟩ := settles start holds
  refine ⟨outcome, meets, fuel + 1, ?_⟩
  intro more enough
  obtain ⟨less, rfl⟩ : ∃ less, more = less + 1 := ⟨more - 1, by omega⟩
  exact settled less (Nat.le_of_succ_le_succ enough)

section

variable {body : Nat → Evaluation α} (settles : Settles terms body)
include settles

theorem bind {next : Nat → α → Evaluation β}
    (rest : ∀ result, Settles terms fun fuel => next fuel result) :
    Settles terms fun fuel => body fuel >>= next fuel :=
  fun start holds => (settles start holds).bind fun result middle held _ =>
    rest result middle held

theorem located (span : Span) : Settles terms fun fuel => Evaluation.located span (body fuel) :=
  fun start holds => (settles start holds).located span

theorem guarding (addresses : List Address) :
    Settles terms fun fuel => Evaluation.guarding addresses (body fuel) :=
  fun start holds => (settles start holds).guarding addresses

theorem holding (addresses : List Address) :
    Settles terms fun fuel => Evaluation.holding addresses (body fuel) :=
  fun start holds => (settles start holds).holding addresses

theorem inScope : Settles terms fun fuel => Evaluation.inScope (body fuel) :=
  fun start holds => (settles { start with scopes := start.scopes.push }
    (terms.steady holds rfl rfl)).framed fun _ => rfl

theorem inLoop : Settles terms fun fuel => Evaluation.inLoop (body fuel) :=
  fun start holds => (settles
    { start with loops := start.loops.push { scopeDepth := start.scopes.depth } }
    (terms.steady holds rfl rfl)).inLoop

end

/-! ## What evaluations are made of -/

theorem pure (result : α) : Settles terms fun _ => Pure.pure result :=
  fixed fun _ holds => holds

theorem meets_fail {cause : Cause} {state : State} (operational : cause.Operational)
    (holds : terms.holds state) : (Evaluation.fail cause state : Outcome α).Meets terms :=
  ⟨operational.typed _, holds⟩

theorem fail {cause : Cause} (operational : cause.Operational) :
    Settles terms fun _ => (Evaluation.fail cause : Evaluation α) :=
  fixed fun _ holds => meets_fail operational holds

theorem stop {reason : Stop} (stops : terms.stops reason) :
    Settles terms fun _ => (Evaluation.stop reason : Evaluation α) :=
  fixed fun _ _ => stops

theorem read (view : State → α) : Settles terms fun _ => Evaluation.read view :=
  fixed fun _ holds => holds

theorem onHeap (action : Heap → α × Heap) : Settles terms fun _ => Evaluation.onHeap action :=
  fixed fun _ holds => terms.steady holds rfl rfl

theorem release (addresses : List Address) :
    Settles terms fun _ => Evaluation.release addresses :=
  onHeap fun heap => ((), heap.releaseAll addresses)

theorem ofExcept {result : Except Cause α} (operational : OperationalFailure result) :
    Settles terms fun _ => Evaluation.ofExcept result := by
  cases result with
  | ok value => exact pure value
  | error cause => exact fail (operational cause rfl)

/-- Something read off the state that may turn out to be a failure. -/
theorem check (view : State → Except Cause α)
    (operational : ∀ state, OperationalFailure (view state))
    {next : Nat → Except Cause α → Evaluation β}
    (rest : ∀ result, OperationalFailure result → Settles terms fun fuel => next fuel result) :
    Settles terms fun fuel => Evaluation.read view >>= next fuel :=
  fun start holds => rest (view start) (operational start) start holds

/-- What an operation on the heap gives may turn out to be a failure. -/
theorem attempt {action : Heap → Except Cause α × Heap}
    (operational : ∀ heap, OperationalFailure (action heap).1) :
    Settles terms fun _ => Evaluation.onHeap action >>= Evaluation.ofExcept := by
  intro start holds
  exact ofExcept (operational start.heap) _ (terms.steady holds rfl rfl)

theorem declare (name : Name) (value : Address) :
    Settles terms fun _ => Evaluation.declare name value :=
  fixed fun _ holds => terms.steady holds rfl rfl

theorem literal (names : Interner) (id : ExpressionId) (value : Literal) :
    Settles terms fun _ => Evaluation.literal names id value := by
  apply fixed
  intro start holds
  unfold Evaluation.literal
  cases start.literal? id with
  | some address => exact terms.steady holds rfl rfl
  | none => exact terms.steady holds rfl rfl

theorem breakLoop : Settles terms fun _ => Evaluation.breakLoop := by
  apply fixed
  intro start holds
  unfold Evaluation.breakLoop
  cases start.loops.break? start.calls.loopBase with
  | some loops => exact terms.steady holds rfl rfl
  | none => exact meets_fail (by exact trivial) holds

theorem continueLoop : Settles terms fun _ => Evaluation.continueLoop := by
  apply fixed
  intro start holds
  unfold Evaluation.continueLoop
  cases start.loops.innermost? start.calls.loopBase with
  | some frame => exact terms.steady holds rfl rfl
  | none => exact meets_fail (by exact trivial) holds

theorem setResult (value : Address) : Settles terms fun _ => Evaluation.setResult value := by
  apply fixed
  intro start holds
  unfold Evaluation.setResult
  cases start.calls.current? with
  | some frame => exact terms.steady holds (Array.size_modify ..) rfl
  | none => exact meets_fail (by exact trivial) holds

/-! ## Operations on values -/

theorem applyArithmetic (operator : ArithmeticOperator) (left right : Address) :
    Settles terms fun _ => Evaluation.applyArithmetic operator left right := by
  apply holding
  apply check
  · intro state
    split
    · exact .arithmetic _ _ _
    · exact .error trivial
  · intro result operational
    exact (ofExcept operational).bind fun value => onHeap (·.newScalar value)

theorem applyUnary (operator : UnaryOperator) (operand : Address) :
    Settles terms fun _ => Evaluation.applyUnary operator operand := by
  apply holding
  apply check
  · intro state
    split
    · exact .unaryResult _ _
    · exact .error trivial
  · intro result operational
    apply (ofExcept operational).bind
    intro value?
    cases value? with
    | some value => exact onHeap (·.newScalar value)
    | none => exact onHeap fun heap => (operand, heap.retain operand)

theorem applyCast (source : Address) (target : StaticType) :
    Settles terms fun _ => Evaluation.applyCast source target := by
  apply holding
  apply check
  · intro state
    split
    · exact .conversion _ _
    · exact .error trivial
  · intro result operational
    apply (ofExcept operational).bind
    intro conversion
    cases conversion with
    | computed value => exact onHeap (·.newScalar value)
    | duplicate => exact onHeap (·.copy source)

theorem readElement (container key : Address) :
    Settles terms fun _ => Evaluation.readElement container key := by
  intro start holds
  have settles := @ofExcept _ terms _ (.readElement start.heap container key)
  exact settles _ (terms.steady holds rfl rfl)

theorem locateForWriting (container key : Address) :
    Settles terms fun _ => Evaluation.locateForWriting container key :=
  attempt fun heap => .locate heap container key .write

/-! ## Variables and places -/

theorem shareVariable (name : Name) :
    Settles terms fun _ => Evaluation.shareVariable setup name := by
  apply fixed
  intro start holds
  unfold Evaluation.shareVariable
  cases start.lookup? name with
  | some address => exact terms.steady holds rfl rfl
  | none => exact meets_fail (by exact trivial) holds

theorem variableCopy (name : Name) :
    Settles terms fun _ => Evaluation.variableCopy setup name := by
  apply fixed
  intro start holds
  unfold Evaluation.variableCopy
  cases start.lookup? name with
  | some address => exact terms.steady holds rfl rfl
  | none => exact meets_fail (by exact trivial) holds

theorem loadPlace (place : Place) : Settles terms fun _ => Evaluation.loadPlace place := by
  apply check _ fun state => .load place state.scopes state.heap
  intro result operational
  exact (ofExcept operational).bind fun address => onHeap fun heap => (address, heap.retain address)

theorem bindingPlace (name : Name) :
    Settles terms fun _ => Evaluation.bindingPlace setup name := by
  apply (read _).bind
  intro found
  cases found with
  | some depth => exact pure _
  | none => exact fail trivial

theorem storeIn (place : Place) (value : Address) :
    Settles terms fun _ => Evaluation.storeIn place value := by
  apply fixed
  intro start holds
  have operational := OperationalFailure.store place start.scopes start.heap value
  simp only [Evaluation.storeIn, Bind.bind, Evaluation.bind, State.onStorage]
  generalize place.store start.scopes start.heap value = stored at operational
  obtain ⟨result, scopes, heap⟩ := stored
  cases result with
  | ok previous => exact terms.steady holds rfl rfl
  | error cause => exact meets_fail (operational cause rfl) (terms.steady holds rfl rfl)

theorem bindParameters (pairs : List (Parameter × Address)) :
    Settles terms fun _ => Evaluation.bindParameters pairs := by
  induction pairs with
  | nil => exact pure ()
  | cons pair others induction => exact (declare pair.1.name pair.2).bind fun _ => induction

/-! ## Calls -/

theorem invokeBuiltin {builtin : Builtin} (registered : builtin ∈ terms.builtins.functions)
    (arguments : List Address) :
    Settles terms fun _ => Evaluation.invokeBuiltin builtin arguments := by
  apply fixed
  intro start holds
  unfold Evaluation.invokeBuiltin
  cases ended : (builtin.invoke arguments start.heap start.output).value with
  | ok address =>
      simp only [ended]
      exact terms.steady holds rfl rfl
  | error failure =>
      simp only [ended]
      refine ⟨?_, terms.steady holds rfl rfl⟩
      unfold Builtin.invoke at ended
      split at ended
      · intro node missing
        exact ⟨builtin, registered, arguments, _, _, failure, ended, missing⟩
      · rw [← Except.error.inj ended]
        exact Cause.Operational.typed (by exact trivial) _

theorem callBuiltin (same : setup.builtins = terms.builtins) (name : Name)
    (arguments : List Address) :
    Settles terms fun _ => Evaluation.callBuiltin setup name arguments := by
  apply holding
  cases found : setup.builtins.get? (setup.program.names.lookup name) with
  | some builtin =>
      rw [same] at found
      exact invokeBuiltin (List.mem_of_find?_eq_some found) arguments
  | none => exact fail trivial

theorem Calls.pop_of_none {calls : Calls} (none : calls.current? = none) : calls.pop = calls := by
  have empty : calls.frames = #[] := Array.back?_eq_none_iff.mp none
  rw [Calls.pop, empty, Array.pop_empty, ← empty]

section

variable {inner : Terms} {function : Function} {arguments : List Address} {nested : Nat → Nested}
  (same : inner.builtins = terms.builtins)
  (stops : ∀ reason, inner.stops reason → terms.stops reason)
  (leaves : ∀ {before after : State}, inner.holds before → after.calls = before.calls.pop →
    terms.holds after)

include leaves in
theorem meets_popCall {state : State} (holds : inner.holds state) :
    (popCall state).Meets terms := by
  unfold popCall
  cases current : state.calls.current? with
  | none => exact leaves holds (Calls.pop_of_none current).symm
  | some frame => exact leaves holds rfl

include leaves in
theorem meets_abandonCall {state : State} {failure : Failure} (typed : failure.Typed terms.builtins)
    (holds : inner.holds state) :
    (abandonCall setup failure state : Outcome α).Meets terms := by
  have attached : (state.calls.attach setup.program.names failure).Typed terms.builtins := by
    intro node missing
    rw [Calls.cause_attach] at missing
    exact typed node missing
  unfold abandonCall
  cases current : state.calls.current? with
  | none => exact ⟨attached, leaves holds (Calls.pop_of_none current).symm⟩
  | some frame => exact ⟨attached, leaves holds rfl⟩

include same stops leaves

/-- The frame of a call is left when the body has settled on terms of its own. -/
theorem runCall (body : Settles inner fun fuel => runBody (nested fuel) function arguments)
    {start : State} (holds : inner.holds start) :
    SettlesFrom terms start fun fuel =>
      Evaluation.runCall setup (nested fuel) function arguments := by
  obtain ⟨outcome, meets, fuel, settled⟩ := body start holds
  cases outcome with
  | value result last =>
      refine ⟨popCall last, meets_popCall leaves meets, fuel, ?_⟩
      intro more large
      simp only [Evaluation.runCall, settled more large]
  | failure failure last =>
      obtain ⟨typed, held⟩ := meets
      rw [same] at typed
      refine ⟨abandonCall setup failure last, meets_abandonCall leaves typed held, fuel, ?_⟩
      intro more large
      simp only [Evaluation.runCall, settled more large]
  | stopped reason =>
      refine ⟨.stopped reason, stops reason meets, fuel, ?_⟩
      intro more large
      simp only [Evaluation.runCall, settled more large]

/-- A call is entered if there is room for it, and then its body settles. -/
theorem entered (callSite : Span)
    (body : ∀ {state : State} {frame : CallFrame}, terms.holds state →
      state.calls.exceeded? = none →
        inner.holds { state with calls := state.calls.push frame } ∧
          Settles inner fun fuel => runBody (nested fuel) function arguments) :
    Settles terms fun fuel =>
      Evaluation.guarding arguments (enterCall setup function callSite) >>= fun _ =>
        Evaluation.runCall setup (nested fuel) function arguments := by
  intro start holds
  cases room : start.calls.exceeded? with
  | some limit =>
      refine ⟨.failure (start.calls.attach setup.program.names
        ((Failure.of (.stackOverflow limit)).locate callSite)) (start.releaseAll arguments),
        ⟨?_, terms.steady holds rfl rfl⟩, 0, ?_⟩
      · intro node missing
        rw [Calls.cause_attach] at missing
        exact Cause.noConfusion missing
      · intro more _
        simp only [bind_run, Evaluation.guarding, enterCall, room]
  | none =>
      obtain ⟨pushed, settles⟩ := body holds room
      obtain ⟨outcome, meets, fuel, settled⟩ := runCall same stops leaves settles pushed
      refine ⟨outcome, meets, fuel, ?_⟩
      intro more large
      simp only [bind_run, Evaluation.guarding, enterCall, room]
      exact settled more large

end

theorem callUser {run : Nat → Function → List Address → Evaluation (Option Address)}
    {id : FunctionId} {function : Function}
    (found : setup.program.function? id = some function) (arguments : List Address)
    (callSite : Span)
    (runs : Settles terms fun fuel =>
      Evaluation.guarding arguments (enterCall setup function callSite) >>= fun _ =>
        run fuel function arguments) :
    Settles terms fun fuel => Evaluation.callUser setup (run fuel) id arguments callSite := by
  unfold Evaluation.callUser
  rw [found]
  by_cases arity : arguments.length ≠ function.parameters.length
  · simp only [if_pos arity]
    exact (release arguments).bind fun _ => Settles.located (fail (by exact trivial)) callSite
  · simp only [if_neg arity]
    simp only [← LawfulMonad.bind_assoc]
    apply runs.bind
    intro result?
    cases result? with
    | some result => exact pure result
    | none =>
        by_cases silent : function.result.kind = .none
        · simp only [if_pos silent]
          exact onHeap _
        · simp only [if_neg silent]
          exact Settles.located (fail (by exact trivial)) callSite

/-! ## Nodes that exist -/

theorem withExpression {action : Nat → Expression → Span → Evaluation α} {id : ExpressionId}
    {located : Located Expression} (found : setup.program.expression? id = some located)
    (settles : Settles terms fun fuel => action fuel located.node located.span) :
    Settles terms fun fuel => Evaluation.withExpression setup id (action fuel) := by
  unfold Evaluation.withExpression
  rw [found]
  exact settles

theorem withStatement {action : Nat → Statement → Span → Evaluation α} {id : StatementId}
    {located : Located Statement} (found : setup.program.statement? id = some located)
    (settles : Settles terms fun fuel => action fuel located.node located.span) :
    Settles terms fun fuel => Evaluation.withStatement setup id (action fuel) := by
  unfold Evaluation.withStatement
  rw [found]
  exact settles

theorem recordedType {id : ExpressionId}
    (recorded : (setup.program.types.expression? id).isSome) :
    Settles terms fun _ => Evaluation.recordedType setup id := by
  obtain ⟨type, found⟩ := Option.isSome_iff_exists.mp recorded
  unfold Evaluation.recordedType
  rw [found]
  exact pure type

end Evaluation.Settles

open Evaluation (Settles)

/-! ## Expressions -/

/-- The evaluations of the expressions among the known ones settle. -/
structure Operands.Settle (terms : Terms) (known : ExpressionId → Prop)
    (operands : Nat → Operands) : Prop where
  evaluate : ∀ {id}, known id → Settles terms fun fuel => (operands fuel).evaluate id
  share : ∀ {id}, known id → Settles terms fun fuel => (operands fuel).share id
  target : ∀ {id}, known id → Settles terms fun fuel => (operands fuel).target id

namespace Operands.Settle

open Evaluation.Settles

variable {terms : Terms} {setup : Setup} {known : ExpressionId → Prop}
  {operands : Nat → Operands} (settle : Operands.Settle terms known operands)
include settle

theorem arithmeticChain {rest : List (ArithmeticOperator × ExpressionId)}
    (all : ∀ id ∈ rest.map Prod.snd, known id) (left : Address) :
    Settles terms fun fuel => Evaluation.arithmeticChain (operands fuel) left rest := by
  induction rest generalizing left with
  | nil => exact .pure left
  | cons link rest induction =>
      rw [List.map_cons, List.forall_mem_cons] at all
      apply ((settle.evaluate all.1).guarding [left]).bind
      intro right
      exact (applyArithmetic link.1 left right).bind (induction all.2)

theorem comparisonChain {rest : List (ComparisonOperator × ExpressionId)}
    (all : ∀ id ∈ rest.map Prod.snd, known id) (left : Address) :
    Settles terms fun fuel => Evaluation.comparisonChain (operands fuel) left rest := by
  induction rest generalizing left with
  | nil => exact Settles.holding (onHeap _) [left]
  | cons link rest induction =>
      rw [List.map_cons, List.forall_mem_cons] at all
      apply ((settle.evaluate all.1).guarding [left]).bind
      intro right
      apply check _ fun state => .comparison state.heap link.1 left right
      intro result operational
      apply ((ofExcept operational).guarding [left, right]).bind
      intro holds
      cases holds with
      | true => exact (release [left]).bind fun _ => induction all.2 right
      | false => exact Settles.holding (onHeap _) [left, right]

theorem evaluateAll {ids : List ExpressionId} (all : ∀ id ∈ ids, known id) :
    Settles terms fun fuel => Evaluation.evaluateAll (operands fuel) ids := by
  induction ids with
  | nil => exact .pure []
  | cons id others induction =>
      rw [List.forall_mem_cons] at all
      apply (settle.evaluate all.1).bind
      intro address
      exact ((induction all.2).guarding [address]).bind fun rest => .pure (address :: rest)

theorem evaluatePairs {entries : List (ExpressionId × ExpressionId)}
    (all : ∀ id ∈ entries.flatMap fun entry => [entry.1, entry.2], known id) :
    Settles terms fun fuel => Evaluation.evaluatePairs (operands fuel) entries := by
  induction entries with
  | nil => exact .pure []
  | cons entry others induction =>
      simp only [List.flatMap_cons, List.cons_append, List.nil_append, List.forall_mem_cons] at all
      obtain ⟨key, value, rest⟩ := all
      apply (settle.evaluate key).bind
      intro keyAddress
      apply ((settle.evaluate value).guarding [keyAddress]).bind
      intro valueAddress
      exact ((induction rest).guarding [keyAddress, valueAddress]).bind fun pairs =>
        .pure ((keyAddress, valueAddress) :: pairs)

theorem bound {id : ExpressionId} (here : known id) :
    Settles terms fun fuel => Evaluation.bound (operands fuel) id := by
  apply (settle.evaluate here).bind
  intro address
  apply Settles.holding _ [address]
  apply check
  · intro state
    simp only
    split
    · exact .ok _
    · exact .error trivial
  · intro result operational
    exact ofExcept operational

theorem indexChain {indices : List ExpressionId} (all : ∀ id ∈ indices, known id)
    (container : Address) :
    Settles terms fun fuel => Evaluation.indexChain setup (operands fuel) container indices := by
  induction indices generalizing container with
  | nil => exact .pure container
  | cons index others induction =>
      rw [List.forall_mem_cons] at all
      apply ((settle.evaluate all.1).guarding [container]).bind
      intro key
      exact ((readElement container key).located _).bind (induction all.2)

theorem shareIndexed {base : ExpressionId} {indices : List ExpressionId}
    (all : ∀ id ∈ base :: indices, known id) :
    Settles terms fun fuel => Evaluation.shareIndexed setup (operands fuel) base indices := by
  rw [List.forall_mem_cons] at all
  exact (settle.share all.1).bind (settle.indexChain all.2)

theorem placeChain {indices : List ExpressionId} (all : ∀ id ∈ indices, known id)
    (place : Place) :
    Settles terms fun fuel => Evaluation.placeChain setup (operands fuel) place indices := by
  induction indices generalizing place with
  | nil => exact .pure place
  | cons index others induction =>
      rw [List.forall_mem_cons] at all
      refine Settles.bind (.holding ((loadPlace place).bind ?_) place.handles) (induction all.2)
      intro container
      apply Settles.holding _ [container]
      apply (settle.evaluate all.1).bind
      intro key
      exact (locateForWriting container key).located _

theorem assign {target value : ExpressionId} (place : known target) (stored : known value) :
    Settles terms fun fuel => Evaluation.assign (operands fuel) target value := by
  apply (settle.target place).bind
  intro place
  apply Settles.holding _ place.handles
  apply (settle.evaluate stored).bind
  intro address
  apply (onHeap (·.copy address)).bind
  intro result
  exact ((storeIn place address).guarding [result]).bind fun _ => .pure result

/-- An expression settles if its operands do, and what it calls. -/
theorem expression {invoke : Nat → FunctionId → List Address → Span → Evaluation Address}
    (same : setup.builtins = terms.builtins) {id : ExpressionId} {node : Expression}
    (all : ∀ operand ∈ node.operands, known operand)
    (recorded : node.NeedsType → (setup.program.types.expression? id).isSome)
    (calls : ∀ function ∈ node.callee?, ∀ arguments span,
      Settles terms fun fuel => invoke fuel function arguments span) (span : Span) :
    Settles terms fun fuel =>
      Evaluation.expression setup (operands fuel) (invoke fuel) id node span := by
  cases node with
  | literal value => exact literal _ id value
  | reference name => exact (variableCopy name).located span
  | unary operator operand =>
      apply (settle.evaluate (all operand List.mem_cons_self)).bind
      intro address
      exact (applyUnary operator address).located span
  | arithmetic first rest =>
      obtain ⟨here, others⟩ := List.forall_mem_cons.mp all
      exact ((settle.evaluate here).bind (settle.arithmeticChain others)).located span
  | comparison first rest =>
      obtain ⟨here, others⟩ := List.forall_mem_cons.mp all
      exact ((settle.evaluate here).bind (settle.comparisonChain others)).located span
  | cast source =>
      apply (recordedType (recorded trivial)).bind
      intro target
      apply (settle.evaluate (all source List.mem_cons_self)).bind
      intro address
      exact (applyCast address target).located span
  | vector elements =>
      apply Settles.located _ span
      apply (recordedType (recorded trivial)).bind
      intro type
      exact (settle.evaluateAll all).bind fun addresses => onHeap _
  | dict entries =>
      apply Settles.located _ span
      apply (recordedType (recorded trivial)).bind
      intro type
      exact (settle.evaluatePairs all).bind fun pairs => onHeap _
  | range start stop =>
      apply (settle.bound (all start List.mem_cons_self)).bind
      intro low
      exact (settle.bound (all stop (by simp [Expression.operands]))).bind fun high => onHeap _
  | index base indices =>
      apply (settle.shareIndexed all).bind
      intro element
      exact Settles.holding (onHeap (·.copy element)) [element]
  | call callee arguments =>
      apply Settles.located _ span
      apply (settle.evaluateAll all).bind
      intro addresses
      cases callee with
      | builtin name => exact callBuiltin same name addresses
      | user function => exact calls function rfl addresses span
  | assign target value =>
      exact Settles.located (settle.assign (all target List.mem_cons_self)
        (all value (by simp [Expression.operands]))) span

theorem sharedExpression {id : ExpressionId} {node : Expression}
    (all : ∀ operand ∈ node.operands, known operand)
    (itself : Settles terms fun fuel => (operands fuel).evaluate id) (span : Span) :
    Settles terms fun fuel =>
      Evaluation.sharedExpression setup (operands fuel) id node span := by
  apply Settles.located _ span
  cases node with
  | reference name => exact shareVariable name
  | index base indices => exact settle.shareIndexed all
  | _ => exact itself

theorem targetExpression {node : Expression} (all : ∀ operand ∈ node.operands, known operand)
    (span : Span) :
    Settles terms fun fuel => Evaluation.targetExpression setup (operands fuel) node span := by
  cases node with
  | reference name => exact (bindingPlace name).located span
  | index base indices =>
      obtain ⟨here, others⟩ := List.forall_mem_cons.mp all
      exact (settle.target here).bind (settle.placeChain others)
  | _ => exact Settles.located (fail (by exact trivial)) span

theorem condition {test : ExpressionId} (here : known test) :
    Settles terms fun fuel => Evaluation.condition setup (operands fuel) test := by
  apply (settle.evaluate here).bind
  intro address
  apply Settles.holding _ [address]
  apply check
  · intro state
    split
    · exact .ok _
    · exact .error trivial
  · intro result operational
    exact (ofExcept operational).located _

theorem initialValue {id : StatementId} {value : Option ExpressionId}
    (all : ∀ operand ∈ value, known operand)
    (recorded : value = none → (setup.program.types.declaration? id).isSome) :
    Settles terms fun fuel => Evaluation.initialValue setup (operands fuel) id value := by
  cases value with
  | some value => exact settle.evaluate (all value rfl)
  | none =>
      obtain ⟨type, found⟩ := Option.isSome_iff_exists.mp (recorded rfl)
      unfold Evaluation.initialValue
      rw [found]
      exact onHeap _

theorem resultValue {value : Option ExpressionId} (all : ∀ operand ∈ value, known operand) :
    Settles terms fun fuel => Evaluation.resultValue (operands fuel) value := by
  apply (read _).bind
  intro outside
  cases outside with
  | true => exact fail (by exact trivial)
  | false =>
      cases value with
      | none => exact onHeap (·.newScalar .none)
      | some id => exact settle.evaluate (all id rfl)

end Operands.Settle

/-! ## Statements -/

/-- The executions of the statements among the known ones settle as well. -/
structure Nested.Settle (terms : Terms) (known : ExpressionId → Prop)
    (within : StatementId → Prop) (nested : Nat → Nested) : Prop where
  operands : Operands.Settle terms known fun fuel => (nested fuel).toOperands
  execute : ∀ {id}, within id → Settles terms fun fuel => (nested fuel).execute id

/-- Statements that run their bodies again and again. -/
def Statement.Loops : Statement → Prop
  | .forEach .. | .whileLoop .. | .doWhile .. | .forever _ => True
  | _ => False

namespace Nested.Settle

open Evaluation.Settles

variable {terms : Terms} {setup : Setup} {known : ExpressionId → Prop}
  {within : StatementId → Prop} {nested : Nat → Nested}
  (settle : Nested.Settle terms known within nested)
include settle

theorem sequence {statements : List StatementId} (all : ∀ id ∈ statements, within id) :
    Settles terms fun fuel => Evaluation.sequence (nested fuel) statements := by
  induction statements with
  | nil => exact .pure ()
  | cons statement others induction =>
      rw [List.forall_mem_cons] at all
      apply (settle.execute all.1).bind
      intro _
      apply (read _).bind
      intro signal
      cases signal with
      | true => exact .pure ()
      | false => exact induction all.2

theorem block {body : Block} (all : ∀ id ∈ body.statements, within id) :
    Settles terms fun fuel => Evaluation.block (nested fuel) body :=
  (settle.sequence all).inScope

theorem iteration (binding : Option (Name × Address)) {body : Block}
    (all : ∀ id ∈ body.statements, within id) :
    Settles terms fun fuel => Evaluation.iteration (nested fuel) binding body := by
  have rest := (settle.sequence all).bind fun _ => read (!·.loopFinished)
  apply Settles.inScope
  cases binding with
  | none => exact rest
  | some pair => exact (declare pair.1 pair.2).bind fun _ => rest

theorem runBody {function : Function} (all : ∀ id ∈ function.body.statements, within id)
    (arguments : List Address) :
    Settles terms fun fuel => Evaluation.runBody (nested fuel) function arguments := by
  apply Settles.inScope
  apply (bindParameters (function.parameters.zip arguments)).bind
  intro _
  exact settle.sequence all

/-- A statement settles if what is in it does, and if it does as a loop. -/
theorem statement {id : StatementId} {node : Statement}
    (values : ∀ value ∈ node.expressions, known value)
    (parts : ∀ part ∈ node.parts, within part)
    (recorded : node.NeedsType → (setup.program.types.declaration? id).isSome) (span : Span)
    (loops : node.Loops → Settles terms fun fuel =>
      Evaluation.statement setup (nested fuel) id node span) :
    Settles terms fun fuel => Evaluation.statement setup (nested fuel) id node span := by
  cases node with
  | expression value =>
      apply Settles.located _ span
      exact (settle.operands.evaluate (values value List.mem_cons_self)).bind fun address =>
        release [address]
  | declare name value =>
      apply Settles.located _ span
      refine (settle.operands.initialValue ?_ ?_).bind (declare name)
      · intro operand member
        exact values operand (Option.mem_toList.mpr member)
      · rintro rfl
        exact recorded trivial
  | block body => exact (settle.block parts).located span
  | branch test body otherwise =>
      obtain ⟨inside, other⟩ := List.forall_mem_append.mp parts
      apply (settle.operands.condition (values test List.mem_cons_self)).bind
      intro holds
      apply Settles.located _ span
      cases holds with
      | true => exact settle.block inside
      | false =>
          cases otherwise with
          | none => exact .pure ()
          | some statement => exact settle.execute (other statement List.mem_cons_self)
  | forEach name iterable body => exact loops trivial
  | whileLoop test body => exact loops trivial
  | doWhile body test => exact loops trivial
  | forever body => exact loops trivial
  | breakLoop => exact Settles.located breakLoop span
  | continueLoop => exact Settles.located continueLoop span
  | giveBack value =>
      apply Settles.located _ span
      refine (settle.operands.resultValue ?_).bind setResult
      intro operand member
      exact values operand (Option.mem_toList.mpr member)

end Nested.Settle

end ScriptEngine
