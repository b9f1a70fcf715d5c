import ScriptEngine.Proofs.Control.Causes
import ScriptEngine.Proofs.Custody.Triple

/-!
# Evaluators in lockstep

Two evaluators that do related things at the nodes inside a node do related
things at the node, whatever the relation, as long as what evaluations are made
of is related to itself and every way of combining evaluations keeps the
relation.  A coupling is such a relation.  A theorem that compares two
evaluators, or says what one of them does everywhere, is then a coupling and an
induction on the fuel.

No evaluation but the entry of a call looks at the limit on the depth of calls,
and none but that fails for it.
-/

namespace ScriptEngine

variable {α β : Type} {setup : Setup}

/-- What an evaluation may do to the frames that are there when it starts. -/
inductive Extent where
  /-- Only the values of bindings may be replaced. -/
  | expression
  /-- Frames may be marked. -/
  | block
  /-- Names may be bound in the innermost frame. -/
  | statement
deriving DecidableEq

/-- What evaluations do to the heap alone. -/
inductive Heap.Act : {α : Type} → (Heap → α × Heap) → Prop where
  | releaseAll (addresses : List Address) : Act fun heap => ((), heap.releaseAll addresses)
  | retain (address : Address) : Act fun heap => (address, heap.retain address)
  | newScalar (value : Scalar) : Act (·.newScalar value)
  | newDefault (type : StaticType) : Act (·.newDefault type)
  | newVector (element : StaticType) (elements : List Address) : Act (·.newVector element elements)
  | newDict (key value : StaticType) (pairs : List (Address × Address)) :
      Act (·.newDict key value pairs)
  | copy (address : Address) : Act (·.copy address)
  | readElement (container key : Address) : Act (·.readElement container key)
  | locate (container key : Address) : Act (·.locate container key .write)
  | next? (items : Items) : Act items.next?

/-- Store an object in a place, if it can be. -/
def Evaluation.store (place : Place) (value : Address) : Evaluation (Except Cause Address) :=
  fun state =>
    let (result, state) := state.onStorage fun scopes heap => place.store scopes heap value
    .value result state

/-- The state with another limit on the depth of calls. -/
def State.withLimit (state : State) (limit : Option Nat) : State :=
  { state with calls := { state.calls with limit := limit } }

/-- A view of the state that the limit has no part in. -/
def State.Unlimited (view : State → α) : Prop :=
  ∀ (state : State) (limit : Option Nat), view (state.withLimit limit) = view state

/-- A result that an evaluation can have. -/
def Evaluation.Gives (body : Evaluation α) (result : α) : Prop :=
  ∃ start last, body start = .value result last

theorem Evaluation.Triple.gives {before : State → Prop} {body : Evaluation α}
    {after : α → State → Prop} {failed : State → Prop}
    (triple : Triple before body after failed) :
    Triple before body (fun result state => after result state ∧ body.Gives result) failed := by
  intro state held
  have ended := triple state held
  cases outcome : body state with
  | value result last =>
      rw [outcome] at ended
      exact ⟨ended, state, last, outcome⟩
  | failure failure last =>
      rw [outcome] at ended
      exact ended
  | stopped reason =>
      rw [outcome] at ended
      exact ended

open Evaluation in
/-- A relation that all evaluations in a run are in.  The second evaluator may
have a way of its own to run the bodies of calls. -/
structure Coupling (setup : Setup)
    (run : Nested → Function → List Address → Evaluation (Option Address) := runCall setup) where
  relates : {α : Type} → Extent → Evaluation α → Evaluation α → Prop
  /-- The first evaluator may give its loops fewer rounds. -/
  curtails : Prop
  widen : ∀ {α : Type} {extent : Extent} {first second : Evaluation α},
    relates .expression first second → relates extent first second
  loosen : ∀ {α : Type} {first second : Evaluation α},
    relates .block first second → relates .statement first second
  pure : ∀ {α : Type} (result : α), relates .expression (Pure.pure result) (Pure.pure result)
  fail : ∀ {α : Type} (cause : Cause), cause.Ordinary →
    relates .expression (Evaluation.fail cause : Evaluation α) (Evaluation.fail cause)
  stop : ∀ {α : Type} {reason : Stop}, reason ≠ .interrupted →
    relates .expression (Evaluation.stop reason : Evaluation α) (Evaluation.stop reason)
  exhausted : ∀ {α : Type} (body : Evaluation α), curtails →
    relates .expression (Evaluation.stop .outOfFuel) body
  read : ∀ {α : Type} (view : State → α), State.Unlimited view →
    relates .expression (read view) (read view)
  onHeap : ∀ {α : Type} {action : Heap → α × Heap}, Heap.Act action →
    relates .expression (onHeap action) (onHeap action)
  literal : ∀ (id : ExpressionId) (value : Literal),
    relates .expression (literal setup.program.names id value)
      (literal setup.program.names id value)
  store : ∀ (place : Place) (value : Address),
    relates .expression (store place value) (store place value)
  builtin : ∀ {text : String} {builtin : Builtin} (arguments : List Address),
    setup.builtins.get? text = some builtin →
      relates .expression (invokeBuiltin builtin arguments) (invokeBuiltin builtin arguments)
  declare : ∀ (name : Name) (value : Address),
    relates .statement (declare name value) (declare name value)
  breakLoop : relates .expression breakLoop breakLoop
  continueLoop : relates .block continueLoop continueLoop
  setResult : ∀ value : Address, relates .expression (setResult value) (setResult value)
  bind : ∀ {α β : Type} {extent : Extent} {first second : Evaluation α}
    {next next' : α → Evaluation β},
    relates extent first second →
      (∀ result, first.Gives result → relates extent (next result) (next' result)) →
        relates extent (first >>= next) (second >>= next')
  located : ∀ {α : Type} {extent : Extent} {first second : Evaluation α} (span : Span),
    relates extent first second → relates extent (located span first) (located span second)
  holding : ∀ {α : Type} {first second : Evaluation α} (addresses : List Address),
    relates .expression first second →
      relates .expression (holding addresses first) (holding addresses second)
  guarding : ∀ {α : Type} {first second : Evaluation α} (addresses : List Address),
    relates .expression first second →
      relates .expression (guarding addresses first) (guarding addresses second)
  inScope : ∀ {α : Type} {first second : Evaluation α},
    relates .statement first second → relates .block (inScope first) (inScope second)
  inLoop : ∀ {α : Type} {first second : Evaluation α},
    relates .block first second → relates .expression (inLoop first) (inLoop second)
  call : ∀ {first second : Nested} (function : Function) (arguments : List Address)
    (callSite : Span),
    relates .block (runBody first function arguments) (runBody second function arguments) →
      relates .expression
        (Evaluation.guarding arguments (enterCall setup function callSite) >>= fun _ =>
          runCall setup first function arguments)
        (Evaluation.guarding arguments (enterCall setup function callSite) >>= fun _ =>
          run second function arguments)

variable {run : Nested → Function → List Address → Evaluation (Option Address)}

def Coupling.Shortens (coupling : Coupling setup run) (count more : Nat) : Prop :=
  count = more ∨ coupling.curtails ∧ count ≤ more

variable {coupling : Coupling setup run}

def Evaluation.Related (coupling : Coupling setup run) (extent : Extent)
    (first second : Evaluation α) : Prop :=
  coupling.relates extent first second

structure Operands.Related (coupling : Coupling setup run) (first second : Operands) : Prop where
  evaluate : ∀ id, (first.evaluate id).Related coupling .expression (second.evaluate id)
  share : ∀ id, (first.share id).Related coupling .expression (second.share id)
  target : ∀ id, (first.target id).Related coupling .expression (second.target id)

structure Nested.Related (coupling : Coupling setup run) (first second : Nested) : Prop where
  operands : first.toOperands.Related coupling second.toOperands
  execute : ∀ id, (first.execute id).Related coupling .statement (second.execute id)
  iterations : coupling.Shortens first.iterations second.iterations

namespace Evaluation

variable {extent : Extent}

namespace Related

section

variable {first second : Evaluation α}

theorem bind {next next' : α → Evaluation β} (related : first.Related coupling extent second)
    (rest : ∀ result, (next result).Related coupling extent (next' result)) :
    (first >>= next).Related coupling extent (second >>= next') :=
  coupling.bind related fun result _ => rest result

/-- Only the results that there can be go on. -/
theorem bind_given {next next' : α → Evaluation β} (related : first.Related coupling extent second)
    (rest : ∀ result, first.Gives result → (next result).Related coupling extent (next' result)) :
    (first >>= next).Related coupling extent (second >>= next') :=
  coupling.bind related rest

theorem widen (related : first.Related coupling .expression second) :
    first.Related coupling extent second :=
  coupling.widen related

theorem located (related : first.Related coupling extent second) (span : Span) :
    (Evaluation.located span first).Related coupling extent (Evaluation.located span second) :=
  coupling.located span related

theorem holding (related : first.Related coupling .expression second)
    (addresses : List Address) :
    (Evaluation.holding addresses first).Related coupling .expression
      (Evaluation.holding addresses second) :=
  coupling.holding addresses related

theorem guarding (related : first.Related coupling .expression second)
    (addresses : List Address) :
    (Evaluation.guarding addresses first).Related coupling .expression
      (Evaluation.guarding addresses second) :=
  coupling.guarding addresses related

theorem inScope (related : first.Related coupling .statement second) :
    (Evaluation.inScope first).Related coupling .block (Evaluation.inScope second) :=
  coupling.inScope related

theorem inLoop (related : first.Related coupling .block second) :
    (Evaluation.inLoop first).Related coupling .expression (Evaluation.inLoop second) :=
  coupling.inLoop related

end

/-! ## What evaluations are made of -/

theorem pure (result : α) :
    (Pure.pure result : Evaluation α).Related coupling extent (Pure.pure result) :=
  coupling.widen (coupling.pure result)

theorem fail (cause : Cause) (ordinary : cause.Ordinary) :
    (Evaluation.fail cause : Evaluation α).Related coupling extent (Evaluation.fail cause) :=
  coupling.widen (coupling.fail cause ordinary)

theorem missingNode :
    (Evaluation.stop .missingNode : Evaluation α).Related coupling extent
      (Evaluation.stop .missingNode) :=
  coupling.widen (coupling.stop (by decide))

theorem outOfFuel :
    (Evaluation.stop .outOfFuel : Evaluation α).Related coupling extent
      (Evaluation.stop .outOfFuel) :=
  coupling.widen (coupling.stop (by decide))

theorem read (view : State → α) (unlimited : State.Unlimited view) :
    (Evaluation.read view).Related coupling extent (Evaluation.read view) :=
  coupling.widen (coupling.read view unlimited)

theorem onHeap {action : Heap → α × Heap} (act : Heap.Act action) :
    (Evaluation.onHeap action).Related coupling extent (Evaluation.onHeap action) :=
  coupling.widen (coupling.onHeap act)

theorem release (addresses : List Address) :
    (Evaluation.release addresses).Related coupling extent (Evaluation.release addresses) :=
  onHeap (.releaseAll addresses)

theorem ofExcept (result : Except Cause α) (operational : OperationalFailure result) :
    (Evaluation.ofExcept result).Related coupling extent (Evaluation.ofExcept result) := by
  cases result with
  | ok value => exact pure value
  | error cause => exact fail cause (operational cause rfl).ordinary

/-- Something read off the state that may turn out to be a failure. -/
theorem check (view : State → Except Cause α) (unlimited : State.Unlimited view)
    (operational : ∀ state, OperationalFailure (view state))
    {next next' : Except Cause α → Evaluation β}
    (rest : ∀ result, OperationalFailure result →
      (next result).Related coupling extent (next' result)) :
    (Evaluation.read view >>= next).Related coupling extent (Evaluation.read view >>= next') := by
  apply (read view unlimited).bind_given
  rintro _ ⟨start, last, given⟩
  obtain ⟨rfl, _⟩ := Outcome.value.inj given
  exact rest _ (operational start)

/-- What an operation on the heap gives may turn out to be a failure. -/
theorem attempt {action : Heap → Except Cause α × Heap} (act : Heap.Act action)
    (operational : ∀ heap, OperationalFailure (action heap).1) :
    (Evaluation.onHeap action >>= Evaluation.ofExcept).Related coupling extent
      (Evaluation.onHeap action >>= Evaluation.ofExcept) := by
  apply (onHeap act).bind_given
  rintro _ ⟨start, last, given⟩
  obtain ⟨rfl, _⟩ := Outcome.value.inj given
  exact ofExcept _ (operational start.heap)

theorem recordedType (id : ExpressionId) :
    (Evaluation.recordedType setup id).Related coupling .expression
      (Evaluation.recordedType setup id) := by
  unfold Evaluation.recordedType
  cases setup.program.types.expression? id with
  | some type => exact pure type
  | none => exact fail _ fun _ => Cause.noConfusion

/-! ## Operations on values -/

theorem applyArithmetic (operator : ArithmeticOperator) (left right : Address) :
    (Evaluation.applyArithmetic operator left right).Related coupling .expression
      (Evaluation.applyArithmetic operator left right) := by
  apply Related.holding _ [left, right]
  apply check _ fun _ _ => rfl
  · intro state
    split
    · exact .arithmetic _ _ _
    · exact .error trivial
  · intro result operational
    exact (ofExcept result operational).bind fun value => onHeap (.newScalar value)

theorem applyUnary (operator : UnaryOperator) (operand : Address) :
    (Evaluation.applyUnary operator operand).Related coupling .expression
      (Evaluation.applyUnary operator operand) := by
  apply Related.holding _ [operand]
  apply check _ fun _ _ => rfl
  · intro state
    split
    · exact .unaryResult _ _
    · exact .error trivial
  intro result operational
  apply (ofExcept result operational).bind
  intro value?
  cases value? with
  | some value => exact onHeap (.newScalar value)
  | none => exact onHeap (.retain operand)

theorem applyCast (source : Address) (target : StaticType) :
    (Evaluation.applyCast source target).Related coupling .expression
      (Evaluation.applyCast source target) := by
  apply Related.holding _ [source]
  apply check _ fun _ _ => rfl
  · intro state
    split
    · exact .conversion _ _
    · exact .error trivial
  intro result operational
  apply (ofExcept result operational).bind
  intro conversion
  cases conversion with
  | computed value => exact onHeap (.newScalar value)
  | duplicate => exact onHeap (.copy source)

theorem readElement (container key : Address) :
    (Evaluation.readElement container key).Related coupling .expression
      (Evaluation.readElement container key) := by
  apply ((onHeap (.readElement container key)).holding [container]).bind_given
  rintro result ⟨start, last, given⟩
  obtain ⟨rfl, _⟩ := Outcome.value.inj given
  exact ofExcept _ (.readElement start.heap container key)

theorem locateForWriting (container key : Address) :
    (Evaluation.locateForWriting container key).Related coupling .expression
      (Evaluation.locateForWriting container key) :=
  attempt (.locate container key) fun heap => .locate heap container key .write

/-! ## Variables and places -/

/-- What is done with the object bound to a name. -/
theorem withVariable (name : Name) {action : Address → Heap → Address × Heap}
    (acts : ∀ address, Heap.Act (action address)) :
    (Evaluation.read (·.lookup? name) >>= fun address? =>
      address?.elim (Evaluation.fail (.undefinedVariable (setup.program.names.lookup name)))
        fun address => Evaluation.onHeap (action address)).Related coupling .expression
      (Evaluation.read (·.lookup? name) >>= fun address? =>
        address?.elim (Evaluation.fail (.undefinedVariable (setup.program.names.lookup name)))
          fun address => Evaluation.onHeap (action address)) := by
  apply (read _ fun _ _ => rfl).bind
  intro address?
  cases address? with
  | some address => exact onHeap (acts address)
  | none => exact fail _ fun _ => Cause.noConfusion

theorem shareVariable (name : Name) :
    (Evaluation.shareVariable setup name).Related coupling .expression
      (Evaluation.shareVariable setup name) := by
  have same : Evaluation.shareVariable setup name =
      Evaluation.read (·.lookup? name) >>= fun address? =>
        address?.elim (Evaluation.fail (.undefinedVariable (setup.program.names.lookup name)))
          Evaluation.retain := by
    funext state
    rw [bind_run, Evaluation.shareVariable, Evaluation.read]
    cases state.lookup? name with
    | some address => rfl
    | none => rfl
  rw [same]
  exact withVariable name .retain

theorem variableCopy (name : Name) :
    (Evaluation.variableCopy setup name).Related coupling .expression
      (Evaluation.variableCopy setup name) := by
  have same : Evaluation.variableCopy setup name =
      Evaluation.read (·.lookup? name) >>= fun address? =>
        address?.elim (Evaluation.fail (.undefinedVariable (setup.program.names.lookup name)))
          Evaluation.copy := by
    funext state
    rw [bind_run, Evaluation.variableCopy, Evaluation.read]
    cases state.lookup? name with
    | some address => rfl
    | none => rfl
  rw [same]
  exact withVariable name .copy

theorem loadPlace (place : Place) :
    (Evaluation.loadPlace place).Related coupling .expression
      (Evaluation.loadPlace place) := by
  apply check _ (fun _ _ => rfl) fun state => .load place state.scopes state.heap
  intro result operational
  exact (ofExcept result operational).bind fun address =>
    onHeap (.retain address)

theorem bindingPlace (name : Name) :
    (Evaluation.bindingPlace setup name).Related coupling .expression
      (Evaluation.bindingPlace setup name) := by
  apply (read _ fun _ _ => rfl).bind
  intro found
  cases found with
  | some depth => exact pure _
  | none => exact fail _ fun _ => Cause.noConfusion

theorem storeIn (place : Place) (value : Address) :
    (Evaluation.storeIn place value).Related coupling .expression
      (Evaluation.storeIn place value) := by
  apply Related.bind_given (coupling.store place value)
  rintro result ⟨start, last, given⟩
  have operational : OperationalFailure result := by
    rw [← (Outcome.value.inj given).1]
    exact .store place start.scopes start.heap value
  cases result with
  | ok previous => exact release [previous]
  | error cause => exact (release [value]).bind fun _ => fail cause (operational cause rfl).ordinary

theorem callBuiltin (name : Name) (arguments : List Address) :
    (Evaluation.callBuiltin setup name arguments).Related coupling .expression
      (Evaluation.callBuiltin setup name arguments) := by
  apply Related.holding _ arguments
  cases found : setup.builtins.get? (setup.program.names.lookup name) with
  | some builtin => exact coupling.builtin arguments found
  | none => exact fail _ fun _ => Cause.noConfusion

theorem bindParameters (pairs : List (Parameter × Address)) :
    (Evaluation.bindParameters pairs).Related coupling .statement
      (Evaluation.bindParameters pairs) := by
  induction pairs with
  | nil => exact .pure ()
  | cons pair others induction =>
      exact Evaluation.Related.bind (coupling.declare pair.1.name pair.2) fun _ => induction

theorem withExpression {action action' : Expression → Span → Evaluation α} (id : ExpressionId)
    (acts : ∀ node span, (action node span).Related coupling .expression (action' node span)) :
    (Evaluation.withExpression setup id action).Related coupling .expression
      (Evaluation.withExpression setup id action') := by
  unfold Evaluation.withExpression
  cases setup.program.expression? id with
  | none => exact missingNode
  | some found => exact acts found.node found.span

/-- Loops whose rounds are related if what follows a round is. -/
theorem rounds {ι : Type} (first second : Nat → ι → Evaluation α)
    (none : ∀ item, first 0 item = Evaluation.stop .outOfFuel)
    (none' : ∀ item, second 0 item = Evaluation.stop .outOfFuel)
    (round : ∀ {count more : Nat},
      (∀ item, (first count item).Related coupling extent (second more item)) →
        ∀ item, (first (count + 1) item).Related coupling extent (second (more + 1) item))
    {count more : Nat} (shortens : coupling.Shortens count more) (item : ι) :
    (first count item).Related coupling extent (second more item) := by
  induction count generalizing more item with
  | zero =>
      rcases shortens with rfl | ⟨curtails, _⟩
      · rw [none, none']
        exact outOfFuel
      · rw [none]
        exact coupling.widen (coupling.exhausted _ curtails)
  | succ count induction =>
      cases more with
      | zero => simp [Coupling.Shortens] at shortens
      | succ more =>
          apply round
          intro item
          apply induction
          rcases shortens with same | ⟨curtails, fewer⟩
          · exact Or.inl (Nat.succ.inj same)
          · exact Or.inr ⟨curtails, Nat.le_of_succ_le_succ fewer⟩

end Related

end Evaluation

/-! ## Expressions -/

namespace Operands.Related

open Evaluation.Related

variable {first second : Operands} (related : first.Related coupling second)
include related

theorem arithmeticChain (rest : List (ArithmeticOperator × ExpressionId)) (left : Address) :
    (Evaluation.arithmeticChain first left rest).Related coupling .expression
      (Evaluation.arithmeticChain second left rest) := by
  induction rest generalizing left with
  | nil => exact .pure left
  | cons link rest induction =>
      apply ((related.evaluate link.2).guarding [left]).bind
      intro right
      exact (applyArithmetic link.1 left right).bind induction

theorem comparisonChain (rest : List (ComparisonOperator × ExpressionId)) (left : Address) :
    (Evaluation.comparisonChain first left rest).Related coupling .expression
      (Evaluation.comparisonChain second left rest) := by
  induction rest generalizing left with
  | nil => exact (onHeap (.newScalar _)).holding [left]
  | cons link rest induction =>
      apply ((related.evaluate link.2).guarding [left]).bind
      intro right
      apply check _ (fun _ _ => rfl) fun state => .comparison state.heap link.1 left right
      intro result operational
      apply ((ofExcept result operational).guarding [left, right]).bind
      intro holds
      cases holds with
      | true => exact (release [left]).bind fun _ => induction right
      | false => exact (onHeap (.newScalar _)).holding [left, right]

theorem evaluateAll (ids : List ExpressionId) :
    (Evaluation.evaluateAll first ids).Related coupling .expression
      (Evaluation.evaluateAll second ids) := by
  induction ids with
  | nil => exact .pure []
  | cons id others induction =>
      apply (related.evaluate id).bind
      intro address
      exact (induction.guarding [address]).bind fun rest => .pure (address :: rest)

theorem evaluatePairs (pairs : List (ExpressionId × ExpressionId)) :
    (Evaluation.evaluatePairs first pairs).Related coupling .expression
      (Evaluation.evaluatePairs second pairs) := by
  induction pairs with
  | nil => exact .pure []
  | cons pair others induction =>
      apply (related.evaluate pair.1).bind
      intro key
      apply ((related.evaluate pair.2).guarding [key]).bind
      intro value
      exact (induction.guarding [key, value]).bind fun rest => .pure ((key, value) :: rest)

theorem bound (id : ExpressionId) :
    (Evaluation.bound first id).Related coupling .expression (Evaluation.bound second id) := by
  apply (related.evaluate id).bind
  intro address
  apply Evaluation.Related.holding _ [address]
  apply check _ fun _ _ => rfl
  · intro state
    simp only
    split
    · exact .ok _
    · exact .error trivial
  · exact ofExcept

theorem indexChain (indices : List ExpressionId) (container : Address) :
    (Evaluation.indexChain setup first container indices).Related coupling .expression
      (Evaluation.indexChain setup second container indices) := by
  induction indices generalizing container with
  | nil => exact .pure container
  | cons index others induction =>
      apply ((related.evaluate index).guarding [container]).bind
      intro key
      exact ((readElement container key).located _).bind induction

theorem shareIndexed (base : ExpressionId) (indices : List ExpressionId) :
    (Evaluation.shareIndexed setup first base indices).Related coupling .expression
      (Evaluation.shareIndexed setup second base indices) :=
  (related.share base).bind (related.indexChain indices)

theorem placeChain (indices : List ExpressionId) (place : Place) :
    (Evaluation.placeChain setup first place indices).Related coupling .expression
      (Evaluation.placeChain setup second place indices) := by
  induction indices generalizing place with
  | nil => exact .pure place
  | cons index others induction =>
      refine Evaluation.Related.bind (.holding ((loadPlace place).bind ?_) place.handles) induction
      intro container
      apply Evaluation.Related.holding _ [container]
      apply (related.evaluate index).bind
      intro key
      exact (locateForWriting container key).located _

theorem assign (target value : ExpressionId) :
    (Evaluation.assign first target value).Related coupling .expression
      (Evaluation.assign second target value) := by
  apply (related.target target).bind
  intro place
  apply Evaluation.Related.holding _ place.handles
  apply (related.evaluate value).bind
  intro stored
  apply (onHeap (.copy stored)).bind
  intro result
  exact ((storeIn place stored).guarding [result]).bind fun _ => .pure result

theorem call {invoke invoke' : FunctionId → List Address → Span → Evaluation Address}
    (calls : ∀ id arguments span,
      (invoke id arguments span).Related coupling .expression (invoke' id arguments span))
    (callee : Callee) (arguments : List ExpressionId) (span : Span) :
    (Evaluation.call setup first invoke callee arguments span).Related coupling .expression
      (Evaluation.call setup second invoke' callee arguments span) := by
  apply (related.evaluateAll arguments).bind
  intro addresses
  cases callee with
  | builtin name => exact callBuiltin name addresses
  | user function => exact calls function addresses span

theorem expression {invoke invoke' : FunctionId → List Address → Span → Evaluation Address}
    (calls : ∀ id arguments span,
      (invoke id arguments span).Related coupling .expression (invoke' id arguments span))
    (id : ExpressionId) (node : Expression) (span : Span) :
    (Evaluation.expression setup first invoke id node span).Related coupling .expression
      (Evaluation.expression setup second invoke' id node span) := by
  cases node with
  | literal value => exact coupling.literal id value
  | reference name => exact (variableCopy name).located span
  | unary operator operand =>
      apply (related.evaluate operand).bind
      intro address
      exact (applyUnary operator address).located span
  | arithmetic operand rest =>
      exact ((related.evaluate operand).bind (related.arithmeticChain rest)).located span
  | comparison operand rest =>
      exact ((related.evaluate operand).bind (related.comparisonChain rest)).located span
  | cast source =>
      apply (recordedType id).bind
      intro target
      apply (related.evaluate source).bind
      intro address
      exact (applyCast address target).located span
  | vector elements =>
      apply Evaluation.Related.located _ span
      apply (recordedType id).bind
      intro type
      exact (related.evaluateAll elements).bind fun addresses => onHeap (.newVector _ addresses)
  | dict entries =>
      apply Evaluation.Related.located _ span
      apply (recordedType id).bind
      intro type
      exact (related.evaluatePairs entries).bind fun pairs => onHeap (.newDict _ _ pairs)
  | range start stop =>
      apply (related.bound start).bind
      intro low
      exact (related.bound stop).bind fun high => onHeap (.newScalar (.range low high))
  | index base indices =>
      apply (related.shareIndexed base indices).bind
      intro element
      exact (onHeap (.copy element)).holding [element]
  | call callee arguments => exact (related.call calls callee arguments span).located span
  | assign target value => exact (related.assign target value).located span

theorem sharedExpression (id : ExpressionId) (node : Expression) (span : Span) :
    (Evaluation.sharedExpression setup first id node span).Related coupling .expression
      (Evaluation.sharedExpression setup second id node span) := by
  apply Evaluation.Related.located _ span
  split
  · exact shareVariable _
  · exact related.shareIndexed _ _
  · exact related.evaluate id

theorem targetExpression (node : Expression) (span : Span) :
    (Evaluation.targetExpression setup first node span).Related coupling .expression
      (Evaluation.targetExpression setup second node span) := by
  unfold Evaluation.targetExpression
  split
  · exact (bindingPlace _).located span
  · rename_i base indices
    exact (related.target base).bind (related.placeChain indices)
  · apply Evaluation.Related.located
    exact fail _ fun _ => Cause.noConfusion

theorem condition (test : ExpressionId) :
    (Evaluation.condition setup first test).Related coupling .expression
      (Evaluation.condition setup second test) := by
  apply (related.evaluate test).bind
  intro address
  apply Evaluation.Related.holding _ [address]
  apply check _ fun _ _ => rfl
  · intro state
    split
    · exact .ok _
    · exact .error trivial
  · intro result operational
    exact (ofExcept result operational).located _

theorem initialValue (id : StatementId) (value : Option ExpressionId) :
    (Evaluation.initialValue setup first id value).Related coupling .expression
      (Evaluation.initialValue setup second id value) := by
  cases value with
  | some value => exact related.evaluate value
  | none =>
      unfold Evaluation.initialValue
      cases setup.program.types.declaration? id with
      | some type => exact onHeap (.newDefault type)
      | none => exact fail _ fun _ => Cause.noConfusion

theorem resultValue (value : Option ExpressionId) :
    (Evaluation.resultValue first value).Related coupling .expression
      (Evaluation.resultValue second value) := by
  apply (Evaluation.Related.read _ fun _ _ => rfl).bind
  intro outside
  cases outside with
  | true => exact fail _ fun _ => Cause.noConfusion
  | false =>
      cases value with
      | none => exact onHeap (.newScalar .none)
      | some id => exact related.evaluate id

end Operands.Related

/-! ## Statements and calls -/

namespace Nested.Related

open Evaluation.Related

variable {first second : Nested} (related : first.Related coupling second)
include related

theorem sequence (statements : List StatementId) :
    (Evaluation.sequence first statements).Related coupling .statement
      (Evaluation.sequence second statements) := by
  induction statements with
  | nil => exact .pure ()
  | cons statement others induction =>
      apply (related.execute statement).bind
      intro _
      apply (Evaluation.Related.read _ fun _ _ => rfl).bind
      intro signal
      cases signal with
      | true => exact .pure ()
      | false => exact induction

theorem block (body : Block) :
    (Evaluation.block first body).Related coupling .block (Evaluation.block second body) :=
  (related.sequence body.statements).inScope

theorem iteration (binding : Option (Name × Address)) (body : Block) :
    (Evaluation.iteration first binding body).Related coupling .block
      (Evaluation.iteration second binding body) := by
  have rest := (related.sequence body.statements).bind fun _ =>
    Evaluation.Related.read (!·.loopFinished) fun _ _ => rfl
  apply Evaluation.Related.inScope
  cases binding with
  | none => exact rest
  | some pair => exact Evaluation.Related.bind (coupling.declare pair.1 pair.2) fun _ => rest

/-- A driver that stops after an iteration, or goes on. -/
theorem round (binding : Option (Name × Address)) (body : Block)
    {next next' : Evaluation Unit} (rest : next.Related coupling .block next') :
    (Evaluation.iteration first binding body >>= fun again =>
      if again then next else pure ()).Related coupling .block
      (Evaluation.iteration second binding body >>= fun again =>
        if again then next' else pure ()) := by
  apply (related.iteration binding body).bind
  intro again
  cases again with
  | true => exact rest
  | false => exact .pure ()

theorem forEachFrom (name : Name) (body : Block) (items : Items) :
    (Evaluation.forEachFrom first name body first.iterations items).Related coupling .block
      (Evaluation.forEachFrom second name body second.iterations items) := by
  apply rounds (Evaluation.forEachFrom first name body) (Evaluation.forEachFrom second name body)
    (fun _ => rfl) (fun _ => rfl) _ related.iterations
  intro count more rest items
  apply (onHeap (.next? items)).bind
  intro item?
  cases item? with
  | none => exact .pure ()
  | some item => exact related.round (some (name, item.1)) body (rest item.2)

theorem whileFrom (test : ExpressionId) (body : Block) :
    (Evaluation.whileFrom setup first test body first.iterations).Related coupling .block
      (Evaluation.whileFrom setup second test body second.iterations) := by
  apply rounds (fun count () => Evaluation.whileFrom setup first test body count)
    (fun count () => Evaluation.whileFrom setup second test body count) (fun _ => rfl)
    (fun _ => rfl) _ related.iterations ()
  intro count more rest item
  apply (related.operands.condition test).widen.bind
  intro enters
  cases enters with
  | true => exact related.round none body (rest item)
  | false => exact .pure ()

theorem doWhileFrom (body : Block) (test : ExpressionId) :
    (Evaluation.doWhileFrom setup first body test first.iterations).Related coupling .block
      (Evaluation.doWhileFrom setup second body test second.iterations) := by
  apply rounds (fun count () => Evaluation.doWhileFrom setup first body test count)
    (fun count () => Evaluation.doWhileFrom setup second body test count) (fun _ => rfl)
    (fun _ => rfl) _ related.iterations ()
  intro count more rest item
  apply related.round none body
  apply (related.operands.condition test).widen.bind
  intro again
  cases again with
  | true => exact rest item
  | false => exact .pure ()

theorem foreverFrom (body : Block) :
    (Evaluation.foreverFrom first body first.iterations).Related coupling .block
      (Evaluation.foreverFrom second body second.iterations) := by
  apply rounds (fun count () => Evaluation.foreverFrom first body count)
    (fun count () => Evaluation.foreverFrom second body count) (fun _ => rfl) (fun _ => rfl) _
    related.iterations ()
  intro count more rest item
  exact related.round none body (rest item)

theorem forEach (name : Name) (iterable : ExpressionId) (body : Block) :
    (Evaluation.forEach setup first name iterable body).Related coupling .expression
      (Evaluation.forEach setup second name iterable body) := by
  apply (related.operands.evaluate iterable).bind
  intro source
  apply (Evaluation.Related.read _ fun _ _ => rfl).bind
  intro items?
  split
  · apply (release [source]).bind
    intro _
    exact (related.forEachFrom name body _).inLoop
  · exact (related.forEachFrom name body _).inLoop.holding [source]
  · apply Evaluation.Related.holding _ [source]
    apply (Evaluation.Related.read _ fun _ _ => rfl).bind
    intro kind
    apply Evaluation.Related.located
    exact fail _ fun _ => Cause.noConfusion

theorem statement (id : StatementId) (node : Statement) (span : Span) :
    (Evaluation.statement setup first id node span).Related coupling .statement
      (Evaluation.statement setup second id node span) := by
  cases node with
  | expression value =>
      apply Evaluation.Related.located _ span
      exact (related.operands.evaluate value).widen.bind fun address => release [address]
  | declare name value =>
      apply Evaluation.Related.located _ span
      exact (related.operands.initialValue id value).widen.bind (coupling.declare name)
  | block body => exact Evaluation.Related.located (coupling.loosen (related.block body)) span
  | branch test body otherwise =>
      apply (related.operands.condition test).widen.bind
      intro holds
      apply Evaluation.Related.located _ span
      cases holds with
      | true => exact coupling.loosen (related.block body)
      | false =>
          cases otherwise with
          | none => exact .pure ()
          | some statement => exact related.execute statement
  | forEach name iterable body => exact (related.forEach name iterable body).widen.located span
  | whileLoop test body => exact (related.whileFrom test body).inLoop.widen.located span
  | doWhile body test => exact (related.doWhileFrom body test).inLoop.widen.located span
  | forever body => exact (related.foreverFrom body).inLoop.widen.located span
  | breakLoop => exact Evaluation.Related.located (coupling.widen coupling.breakLoop) span
  | continueLoop => exact Evaluation.Related.located (coupling.loosen coupling.continueLoop) span
  | giveBack value =>
      apply Evaluation.Related.located _ span
      exact ((related.operands.resultValue value).bind coupling.setResult).widen

theorem runBody (function : Function) (arguments : List Address) :
    (Evaluation.runBody first function arguments).Related coupling .block
      (Evaluation.runBody second function arguments) := by
  apply Evaluation.Related.inScope
  apply (bindParameters (function.parameters.zip arguments)).bind
  intro _
  exact related.sequence function.body.statements

theorem callUser (id : FunctionId) (arguments : List Address) (span : Span) :
    (Evaluation.callUser setup (Evaluation.runCall setup first) id arguments span).Related coupling
      .expression (Evaluation.callUser setup (run second) id arguments span) := by
  unfold Evaluation.callUser
  cases setup.program.function? id with
  | none => exact missingNode
  | some function =>
      by_cases arity : arguments.length ≠ function.parameters.length
      · simp only [if_pos arity]
        apply (release arguments).bind
        intro _
        apply Evaluation.Related.located
        exact fail _ fun _ => Cause.noConfusion
      · simp only [if_neg arity]
        rw [← bind_assoc, ← bind_assoc]
        apply Evaluation.Related.bind
          (coupling.call function arguments span (related.runBody function arguments))
        intro result?
        cases result? with
        | some result => exact .pure result
        | none =>
            by_cases silent : function.result.kind = .none
            · simp only [if_pos silent]
              exact onHeap (.newScalar .none)
            · simp only [if_neg silent]
              apply Evaluation.Related.located
              exact fail _ fun _ => Cause.noConfusion

end Nested.Related

/-! ## Runs -/

/-- The evaluator of nodes, given how the bodies of calls are run. -/
def Nested.layerWith (setup : Setup)
    (run : Function → List Address → Evaluation (Option Address)) (inner : Nested)
    (iterations : Nat) : Nested :=
  { layer setup (fun () => inner) iterations with
    evaluate := fun id =>
      Evaluation.withExpression setup id fun node span =>
        Evaluation.expression setup inner.toOperands (Evaluation.callUser setup run) id node
          span }

theorem Nested.layerWith_runCall (setup : Setup) (inner : Nested) (iterations : Nat) :
    layerWith setup (Evaluation.runCall setup inner) inner iterations =
      layer setup (fun () => inner) iterations := rfl

namespace Nested.Related

open Evaluation.Related

variable {first second : Nested} (related : first.Related coupling second)
include related

theorem layer {count more : Nat} (shortens : coupling.Shortens count more) :
    (Nested.layer setup (fun () => first) count).Related coupling
      (Nested.layerWith setup (run second) second more) := by
  refine ⟨⟨?_, ?_, ?_⟩, ?_, shortens⟩
  · intro id
    exact withExpression id (related.operands.expression related.callUser id)
  · intro id
    exact withExpression id (related.operands.sharedExpression id)
  · intro id
    exact withExpression id related.operands.targetExpression
  · intro id
    show (Evaluation.withStatement setup id _).Related coupling .statement
      (Evaluation.withStatement setup id _)
    unfold Evaluation.withStatement
    cases setup.program.statement? id with
    | none => exact missingNode
    | some found => exact related.statement id found.node found.span

end Nested.Related

/-- Whatever a coupling says of two evaluators, it says of one beside itself. -/
theorem Nested.withFuel_related (coupling : Coupling setup) (fuel : Nat) :
    (withFuel setup fuel).Related coupling (withFuel setup fuel) := by
  induction fuel with
  | zero =>
      exact ⟨⟨fun _ => .outOfFuel, fun _ => .outOfFuel, fun _ => .outOfFuel⟩, fun _ => .outOfFuel,
        Or.inl rfl⟩
  | succ fuel induction => exact induction.layer (Or.inl rfl)

end ScriptEngine
