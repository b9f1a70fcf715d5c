import ScriptEngine.Interpreter.Basic
import ScriptEngine.Proofs.Control.Failures

/-!
# Blame

Failures are raised without a span, and the first node on the way out that has
one claims them.  A failure that a node raises itself is blamed on the node or
on one of its operands, and one that comes out of an operand or out of the body
of a call keeps its blame.  Two operations are left too early for that: a bound
of a range that is no integer, and a cast for which no type is recorded.
-/

namespace ScriptEngine

open Evaluation

variable {α : Type} {setup : Setup}

/-! ## Failures that nothing claims where they are raised -/

/-- The failures that leave a range or a cast without blame. -/
inductive Failure.Slips (setup : Setup) (id : ExpressionId) (failure : Failure) : Prop where
  | bound {start stop : ExpressionId} {span : Span} (kind : String) :
      setup.program.expression? id = some ⟨.range start stop, span⟩ →
      failure.cause = .typeMismatch "int" kind → failure.Slips setup id
  | untyped {source : ExpressionId} {span : Span} :
      setup.program.expression? id = some ⟨.cast source, span⟩ →
      setup.program.types.expression? id = none →
      failure.cause = .missingType id.outline → failure.Slips setup id

/-- A failure with blame, or one that slipped. -/
def Failure.Placed (setup : Setup) (failure : Failure) : Prop :=
  failure.span.isSome = true ∨ ∃ id, failure.Slips setup id

namespace Failure

variable {failure : Failure}

theorem span_locate (failure : Failure) (span : Span) :
    (failure.locate span).span = some (failure.span.getD span) := by
  cases known : failure.span with
  | some blamed => simp [locate, known]
  | none => simp [locate, known]

theorem Placed.locate (failure : Failure) (span : Span) :
    (failure.locate span).Placed setup := by
  refine Or.inl ?_
  rw [span_locate]
  rfl

end Failure

namespace Evaluation

/-- Nothing that is claimed stays without blame. -/
theorem placed_located (span : Span) (body : Evaluation α) :
    (located span body).FailsWith (Failure.Placed setup) := by
  have anything : body.FailsWith fun _ => True := ⟨fun _ => trivial⟩
  exact anything.located span fun failure _ => Failure.Placed.locate failure span

end Evaluation

namespace Evaluation

variable {blames : Failure → Prop} {span : Span}

theorem fail_located {cause : Cause} (claims : blames ((Failure.of cause).locate span)) :
    (located span (fail cause) : Evaluation α).FailsWith blames := by
  have raises : (fail cause : Evaluation α).FailsWith (· = .of cause) := .fail cause rfl
  apply raises.located
  rintro _ rfl
  exact claims

theorem ofExcept_located {result : Except Cause α}
    (claims : ∀ cause, result = .error cause → blames ((Failure.of cause).locate span)) :
    (located span (Evaluation.ofExcept result)).FailsWith blames := by
  cases result with
  | ok value =>
      have succeeds : (pure value : Evaluation α).FailsWith fun _ => False := .pure value
      exact succeeds.located span fun _ => False.elim
  | error cause => exact fail_located (claims cause rfl)

end Evaluation

/-- What all failures of some expressions are like, where these are evaluated. -/
structure Operands.FailWith (blames : Failure → Prop) (operands : Operands)
    (ids : List ExpressionId) : Prop where
  evaluate : ∀ id ∈ ids, (operands.evaluate id).FailsWith blames
  share : ∀ id ∈ ids, (operands.share id).FailsWith blames

namespace Operands.FailWith

variable {blames blames' : Failure → Prop} {operands : Operands} {ids : List ExpressionId}
  (fails : operands.FailWith blames ids)
include fails

theorem mono (implies : ∀ failure, blames failure → blames' failure) :
    operands.FailWith blames' ids :=
  ⟨fun id member => (fails.evaluate id member).mono implies,
    fun id member => (fails.share id member).mono implies⟩

/-- A bound fails as its operand does, or for not being an integer. -/
theorem bound {id : ExpressionId} (member : id ∈ ids)
    (mismatch : ∀ kind, blames (.of (.typeMismatch "int" kind))) :
    (Evaluation.bound operands id).FailsWith blames := by
  apply (fails.evaluate id member).bind
  intro address
  refine FailsWith.holding (FailsWith.reading fun state => ?_) [address]
  apply FailsWith.ofExcept
  intro cause erroneous
  simp only at erroneous
  split at erroneous
  · simp at erroneous
  · rw [← Except.error.inj erroneous]
    exact mismatch _

/-- Following keys, only the keys can fail, and what is blamed on them. -/
theorem indexChain (container : Address) {indices : List ExpressionId} (members : indices ⊆ ids)
    (claims : ∀ cause, ∀ index ∈ indices,
      blames ((Failure.of cause).locate (setup.program.spanOf index))) :
    (Evaluation.indexChain setup operands container indices).FailsWith blames := by
  induction indices generalizing container with
  | nil => exact .pure container
  | cons index others induction =>
      obtain ⟨member, members⟩ := List.cons_subset.mp members
      apply ((fails.evaluate index member).guarding [container]).bind
      intro key
      have reads : (readElement container key).FailsWith fun failure =>
          ∃ cause, failure = .of cause :=
        ((FailsWith.onHeap _).holding [container]).bind fun result =>
          .ofExcept result fun cause _ => ⟨cause, rfl⟩
      have blamed : (located (setup.program.spanOf index) (readElement container key)).FailsWith
          blames := by
        apply reads.located
        rintro _ ⟨cause, rfl⟩
        exact claims cause index List.mem_cons_self
      exact blamed.bind fun element => induction element members fun cause other member =>
        claims cause other (List.mem_cons_of_mem _ member)

theorem shareIndexed {base : ExpressionId} {indices : List ExpressionId}
    (members : base :: indices ⊆ ids)
    (claims : ∀ cause, ∀ index ∈ indices,
      blames ((Failure.of cause).locate (setup.program.spanOf index))) :
    (Evaluation.shareIndexed setup operands base indices).FailsWith blames := by
  obtain ⟨member, members⟩ := List.cons_subset.mp members
  exact (fails.share base member).bind fun container => fails.indexChain container members claims

end Operands.FailWith

/-! ## Whose blame it is -/

/-- The operands of an expression, from left to right. -/
def Expression.operands : Expression → List ExpressionId
  | .literal _ => []
  | .reference _ => []
  | .unary _ operand => [operand]
  | .arithmetic first rest => first :: rest.map (·.2)
  | .comparison first rest => first :: rest.map (·.2)
  | .cast source => [source]
  | .vector elements => elements
  | .dict entries => entries.flatMap fun entry => [entry.1, entry.2]
  | .range start stop => [start, stop]
  | .index base indices => base :: indices
  | .call _ arguments => arguments
  | .assign target value => [target, value]

/-- The operand that is walked as a target before anything else is done. -/
def Expression.base? : Expression → Option ExpressionId
  | .index base _ => some base
  | .assign target _ => some target
  | _ => none

namespace Statement

/-- The expressions that a statement evaluates itself. -/
def expressions : Statement → List ExpressionId
  | .expression value => [value]
  | .declare _ value => value.toList
  | .branch condition _ _ => [condition]
  | .forEach _ iterable _ => [iterable]
  | .whileLoop condition _ => [condition]
  | .doWhile _ condition => [condition]
  | .giveBack value => value.toList
  | .block _ | .forever _ | .breakLoop | .continueLoop => []

/-- The statements inside a statement. -/
def parts : Statement → List StatementId
  | .block body => body.statements
  | .branch _ body otherwise => body.statements ++ otherwise.toList
  | .forEach _ _ body => body.statements
  | .whileLoop _ body => body.statements
  | .doWhile body _ => body.statements
  | .forever body => body.statements
  | .expression _ | .declare _ _ | .breakLoop | .continueLoop | .giveBack _ => []

end Statement

namespace Failure

/-- A failure that came out of a node inside, or one that is blamed on one of
the spans. -/
def Blamed (passed : Failure → Prop) (spans : List Span) (failure : Failure) : Prop :=
  passed failure ∨ ∃ span ∈ spans, failure.span = some span

/-- A failure that a span can claim, or one that is blamed already. -/
def Claimable (passed : Failure → Prop) (spans : List Span) (failure : Failure) : Prop :=
  failure.span = none ∨ failure.Blamed passed spans

/-- A property of failures that outlasts what happens to them on the way out of a
node with a span. -/
structure Traceable (names : Interner) (span : Span) (passed : Failure → Prop) : Prop where
  locate : ∀ failure, passed failure → passed (failure.locate span)
  attach : ∀ failure (calls : Calls), passed failure → passed (calls.attach names failure)

variable {names : Interner} {passed : Failure → Prop} {span : Span} {spans : List Span}
  {failure : Failure} (traceable : Traceable names span passed)
include traceable

/-- Blame is not shifted. -/
theorem Blamed.locate (blamed : failure.Blamed passed spans) :
    (failure.locate span).Blamed passed spans := by
  rcases blamed with came | ⟨blame, member, known⟩
  · exact Or.inl (traceable.locate failure came)
  · rw [locate_of_span known]
    exact Or.inr ⟨blame, member, known⟩

theorem Claimable.locate (claimable : failure.Claimable passed spans) (member : span ∈ spans) :
    (failure.locate span).Blamed passed spans := by
  rcases claimable with loose | blamed
  · refine Or.inr ⟨span, member, ?_⟩
    rw [span_locate, loose]
    rfl
  · exact blamed.locate traceable

end Failure

/-- The failures of the functions are not blamed on anything. -/
def BuiltinTable.Unlocated (table : BuiltinTable) : Prop :=
  ∀ builtin ∈ table.functions, ∀ arguments heap output failure,
    (builtin.action arguments heap output).value = .error failure → failure.span = none

theorem BuiltinTable.Unlocated.standard : BuiltinTable.standard.Unlocated := by
  intro builtin member arguments heap output failure failed
  rcases List.mem_pair.mp member with rfl | rfl
  · simp [Builtin.println, Builtin.write, Builtin.computed] at failed
  · simp [Builtin.print, Builtin.write, Builtin.computed] at failed

theorem Calls.span_attach (calls : Calls) (names : Interner) (failure : Failure) :
    (calls.attach names failure).span = failure.span := by
  unfold Calls.attach Failure.attach
  split
  · rfl
  · split
    · rfl
    · rfl

namespace Failure

/-- A failure that came out of a node inside.  It keeps its blame, and a node claims
only what is not blamed on anything yet. -/
def CameOut (passed : Failure → Prop) (span : Span) (failure : Failure) : Prop :=
  ∃ raised, passed raised ∧ failure.cause = raised.cause ∧
    (failure.span = raised.span ∨ raised.span = none ∧ failure.span = some span)

variable {passed : Failure → Prop} {span : Span} {failure : Failure}

theorem CameOut.of_passed (came : passed failure) : failure.CameOut passed span :=
  ⟨failure, came, rfl, Or.inl rfl⟩

theorem CameOut.locate (came : failure.CameOut passed span) :
    (failure.locate span).CameOut passed span := by
  obtain ⟨raised, known, cause, kept | ⟨loose, claimed⟩⟩ := came
  · refine ⟨raised, known, cause, ?_⟩
    cases blamed : raised.span with
    | some blame =>
        left
        rw [span_locate, kept, blamed]
        rfl
    | none =>
        refine Or.inr ⟨rfl, ?_⟩
        rw [span_locate, kept, blamed]
        rfl
  · rw [locate_of_span claimed]
    exact ⟨raised, known, cause, Or.inr ⟨loose, claimed⟩⟩

theorem cameOut_traceable (names : Interner) (passed : Failure → Prop) (span : Span) :
    Traceable names span (CameOut passed span) := by
  refine ⟨fun _ => CameOut.locate, ?_⟩
  rintro failure calls ⟨raised, known, cause, span⟩
  refine ⟨raised, known, (calls.cause_attach names failure).trans cause, ?_⟩
  rwa [calls.span_attach names failure]

end Failure

namespace Evaluation

variable {passed : Failure → Prop} {span : Span} {spans : List Span}

/-- A node claims what is not blamed on anything yet. -/
theorem FailsWith.claimed {body : Evaluation α} {names : Interner}
    (fails : body.FailsWith (Failure.Claimable passed (span :: spans)))
    (traceable : Failure.Traceable names span passed) :
    (Evaluation.located span body).FailsWith (Failure.Blamed passed (span :: spans)) :=
  fails.located span fun _ claimable => claimable.locate traceable List.mem_cons_self

/-- A failure that is raised is not blamed on anything. -/
theorem raised (cause : Cause) :
    (fail cause : Evaluation α).FailsWith (Failure.Claimable passed spans) :=
  .fail cause (Or.inl rfl)

theorem raised_ofExcept (result : Except Cause α) :
    (ofExcept result).FailsWith (Failure.Claimable passed spans) :=
  .ofExcept result fun _ _ => Or.inl rfl

theorem recordedType_claimable (id : ExpressionId) :
    (recordedType setup id).FailsWith (Failure.Claimable passed spans) := by
  unfold recordedType
  cases setup.program.types.expression? id with
  | some type => exact .pure type
  | none => exact raised _

/-! ### Operations on values -/

theorem applyUnary_claimable (operator : UnaryOperator) (operand : Address) :
    (applyUnary operator operand).FailsWith (Failure.Claimable passed spans) := by
  refine FailsWith.holding ?_ [operand]
  apply (FailsWith.read _).bind
  intro result
  apply (raised_ofExcept result).bind
  intro value?
  cases value? with
  | some value => exact .onHeap _
  | none => exact .onHeap _

theorem applyCast_claimable (source : Address) (target : StaticType) :
    (applyCast source target).FailsWith (Failure.Claimable passed spans) := by
  refine FailsWith.holding ?_ [source]
  apply (FailsWith.read _).bind
  intro result
  apply (raised_ofExcept result).bind
  intro conversion
  cases conversion with
  | computed value => exact .onHeap _
  | duplicate => exact .onHeap _

theorem applyArithmetic_claimable (operator : ArithmeticOperator) (left right : Address) :
    (applyArithmetic operator left right).FailsWith (Failure.Claimable passed spans) := by
  refine FailsWith.holding ?_ [left, right]
  apply (FailsWith.read _).bind
  intro result
  exact (raised_ofExcept result).bind fun value => .onHeap _

/-- Looking a name up, nothing can be blamed but that it is not bound. -/
theorem variableCopy_fails (name : Name) :
    (variableCopy setup name).FailsWith
      (· = .of (.undefinedVariable (setup.program.names.lookup name))) := by
  refine ⟨fun {start last failure} failed => ?_⟩
  unfold variableCopy at failed
  cases found : start.lookup? name with
  | some address => simp [found, copy, onHeap] at failed
  | none =>
      simp only [found] at failed
      exact (Outcome.failure.inj failed).1.symm

theorem shareVariable_fails (name : Name) :
    (shareVariable setup name).FailsWith
      (· = .of (.undefinedVariable (setup.program.names.lookup name))) := by
  refine ⟨fun {start last failure} failed => ?_⟩
  unfold shareVariable at failed
  cases found : start.lookup? name with
  | some address => simp [found, retain, onHeap] at failed
  | none =>
      simp only [found] at failed
      exact (Outcome.failure.inj failed).1.symm

theorem bindingPlace_fails (name : Name) :
    (bindingPlace setup name).FailsWith
      (· = .of (.undefinedVariable (setup.program.names.lookup name))) := by
  apply (FailsWith.read _).bind
  intro found
  cases found with
  | some depth => exact .pure (Place.binding depth name)
  | none => exact .fail _ rfl

/-- What is raised without blame can be claimed. -/
theorem FailsWith.claimable {body : Evaluation α} {cause : Cause}
    (fails : body.FailsWith (· = .of cause)) :
    body.FailsWith (Failure.Claimable passed spans) := by
  apply fails.mono
  rintro _ rfl
  exact Or.inl rfl

theorem storeIn_claimable (place : Place) (value : Address) :
    (storeIn place value).FailsWith (Failure.Claimable passed spans) := by
  refine FailsWith.bind ?_ ?_
  · refine ⟨fun {start last failure} failed => ?_⟩
    simp at failed
  · intro result
    cases result with
    | ok previous => exact .release [previous]
    | error cause => exact (FailsWith.release [value]).bind fun _ => raised cause

end Evaluation

namespace Operands.FailWith

variable {passed : Failure → Prop} {spans : List Span} {operands : Operands}
  {ids : List ExpressionId} (fails : operands.FailWith passed ids)
include fails

/-- What comes out of an operand. -/
theorem claimable {id : ExpressionId} (member : id ∈ ids) :
    (operands.evaluate id).FailsWith (Failure.Claimable passed spans) :=
  (fails.evaluate id member).mono fun _ came => Or.inr (Or.inl came)

theorem arithmeticChain (left : Address) {rest : List (ArithmeticOperator × ExpressionId)}
    (members : rest.map (·.2) ⊆ ids) :
    (Evaluation.arithmeticChain operands left rest).FailsWith (Failure.Claimable passed spans) := by
  induction rest generalizing left with
  | nil => exact .pure left
  | cons step others induction =>
      obtain ⟨member, members⟩ := List.cons_subset.mp members
      apply ((fails.claimable member).guarding [left]).bind
      intro right
      exact (applyArithmetic_claimable step.1 left right).bind fun result =>
        induction result members

theorem comparisonChain (left : Address) {rest : List (ComparisonOperator × ExpressionId)}
    (members : rest.map (·.2) ⊆ ids) :
    (Evaluation.comparisonChain operands left rest).FailsWith (Failure.Claimable passed spans) := by
  induction rest generalizing left with
  | nil => exact (FailsWith.onHeap _).holding [left]
  | cons step others induction =>
      obtain ⟨member, members⟩ := List.cons_subset.mp members
      apply ((fails.claimable member).guarding [left]).bind
      intro right
      apply (FailsWith.read _).bind
      intro result
      apply ((raised_ofExcept result).guarding [left, right]).bind
      intro holds
      cases holds with
      | true => exact (FailsWith.release [left]).bind fun _ => induction right members
      | false => exact (FailsWith.onHeap _).holding [left, right]

theorem evaluateAll {elements : List ExpressionId} (members : elements ⊆ ids) :
    (Evaluation.evaluateAll operands elements).FailsWith (Failure.Claimable passed spans) := by
  induction elements with
  | nil => exact .pure []
  | cons id others induction =>
      obtain ⟨member, members⟩ := List.cons_subset.mp members
      apply (fails.claimable member).bind
      intro first
      exact ((induction members).guarding [first]).bind fun rest => .pure (first :: rest)

theorem evaluatePairs {entries : List (ExpressionId × ExpressionId)}
    (members : (entries.flatMap fun entry => [entry.1, entry.2]) ⊆ ids) :
    (Evaluation.evaluatePairs operands entries).FailsWith (Failure.Claimable passed spans) := by
  induction entries with
  | nil => exact .pure []
  | cons entry others induction =>
      obtain ⟨first, members⟩ := List.cons_subset.mp members
      obtain ⟨second, members⟩ := List.cons_subset.mp members
      apply (fails.claimable first).bind
      intro key
      apply ((fails.claimable second).guarding [key]).bind
      intro value
      exact ((induction members).guarding [key, value]).bind fun rest => .pure ((key, value) :: rest)

/-- The target of an assignment is walked first, from where the assignment starts. -/
theorem assign {target value : ExpressionId} (member : value ∈ ids) {start last : State}
    {failure : Failure}
    (targets : ∀ failure last, operands.target target start = .failure failure last →
      passed failure)
    (failed : Evaluation.assign operands target value start = .failure failure last) :
    failure.Claimable passed spans := by
  rcases failure_bind failed with failed | ⟨place, walked, _, failed⟩
  · exact Or.inr (Or.inl (targets failure last failed))
  · refine (FailsWith.holding ?_ place.handles).blamed failed
    apply (fails.claimable member).bind
    intro stored
    apply (FailsWith.onHeap _).bind
    intro result
    exact ((storeIn_claimable place stored).guarding [result]).bind fun _ => .pure result

end Operands.FailWith

/-! ### Calls -/

namespace Evaluation

variable {passed : Failure → Prop} {spans : List Span}

theorem callBuiltin_claimable (unlocated : setup.builtins.Unlocated) (name : Name)
    (arguments : List Address) :
    (callBuiltin setup name arguments).FailsWith (Failure.Claimable passed spans) := by
  refine FailsWith.holding ?_ arguments
  cases found : setup.builtins.get? (setup.program.names.lookup name) with
  | none => exact raised _
  | some builtin =>
      refine ⟨fun {start last failure} failed => ?_⟩
      unfold invokeBuiltin at failed
      cases ended : (builtin.invoke arguments start.heap start.output).value with
      | ok address => simp [ended] at failed
      | error raised =>
          simp only [ended] at failed
          obtain ⟨rfl, _⟩ := Outcome.failure.inj failed
          left
          unfold Builtin.invoke at ended
          split at ended
          · exact unlocated builtin (List.mem_of_find?_eq_some found) _ _ _ _ ended
          · rw [← Except.error.inj ended]
            rfl

theorem runCall_claimable {nested : Nested} {function : Function} {arguments : List Address}
    {span : Span} (traceable : Failure.Traceable setup.program.names span passed)
    (body : (runBody nested function arguments).FailsWith passed) :
    (runCall setup nested function arguments).FailsWith (Failure.Claimable passed spans) := by
  refine ⟨fun {start last failure} failed => ?_⟩
  obtain ⟨raised, inner, broken, rfl⟩ := runCall_failure failed
  exact Or.inr (Or.inl (traceable.attach raised inner.calls (body.blamed broken)))

theorem callUser_claimable {nested : Nested} {callSite : Span} (member : callSite ∈ spans)
    (traceable : Failure.Traceable setup.program.names callSite passed)
    (bodies : ∀ id function, setup.program.function? id = some function →
      ∀ arguments, (runBody nested function arguments).FailsWith passed)
    (id : FunctionId) (arguments : List Address) :
    (callUser setup (runCall setup nested) id arguments callSite).FailsWith
      (Failure.Claimable passed spans) := by
  have own : ∀ {α : Type} (cause : Cause), (located callSite (fail cause) : Evaluation α).FailsWith
      (Failure.Claimable passed spans) :=
    fun cause => fail_located (Or.inr (Or.inr ⟨callSite, member, rfl⟩))
  unfold callUser
  cases found : setup.program.function? id with
  | none => exact .stop _
  | some function =>
      dsimp only
      split
      · exact (FailsWith.release arguments).bind fun _ => own _
      · refine FailsWith.bind (FailsWith.guarding ?_ arguments) fun _ => ?_
        · refine ⟨fun {start last failure} failed => ?_⟩
          unfold enterCall at failed
          cases room : start.calls.exceeded? with
          | some limit =>
              simp only [room] at failed
              obtain ⟨rfl, _⟩ := Outcome.failure.inj failed
              exact Or.inr (Or.inr ⟨callSite, member, Calls.span_attach _ _ _⟩)
          | none => simp [room] at failed
        · apply (runCall_claimable traceable (bodies id function found arguments)).bind
          intro result?
          cases result? with
          | some result => exact .pure result
          | none =>
              dsimp only
              split
              · exact .onHeap _
              · exact own _

end Evaluation

/-! ### Nodes -/

/-- A failure of an expression came out of a node inside it, is blamed on the
expression or on one of its operands, or slipped. -/
def Failure.OfExpression (setup : Setup) (passed : Failure → Prop) (id : ExpressionId)
    (node : Expression) (span : Span) (failure : Failure) : Prop :=
  failure.Blamed passed (span :: node.operands.map setup.program.spanOf) ∨
    failure.span = none ∧ failure.Slips setup id

/-- A failure of an expression of which no copy is made is blamed on it or on one of
its operands if it names stored data, and otherwise is that of its evaluation. -/
def Failure.OfShared (setup : Setup) (passed : Failure → Prop) (evaluated : Outcome Address)
    (node : Expression) (span : Span) (failure : Failure) (last : State) : Prop :=
  match node with
  | .reference _ | .index _ _ =>
      failure.Blamed passed (span :: node.operands.map setup.program.spanOf)
  | _ => ∃ raised, evaluated = .failure raised last ∧ failure = raised.locate span

namespace Operands.FailWith

variable {passed : Failure → Prop} {operands : Operands} {node : Expression} {span : Span}
  {start last : State} {failure : Failure} (fails : operands.FailWith passed node.operands)
  (traceable : Failure.Traceable setup.program.names span passed)
include fails traceable

theorem expression {invoke : FunctionId → List Address → Span → Evaluation Address}
    (targets : ∀ base failure last, node.base? = some base →
      operands.target base start = .failure failure last → passed failure)
    (calls : ∀ id arguments, (invoke id arguments span).FailsWith
      (Failure.Claimable passed (span :: node.operands.map setup.program.spanOf)))
    (unlocated : setup.builtins.Unlocated) {id : ExpressionId}
    (found : setup.program.expression? id = some ⟨node, span⟩)
    (failed : Evaluation.expression setup operands invoke id node span start =
      .failure failure last) : failure.OfExpression setup passed id node span := by
  have came : operands.FailWith (Failure.OfExpression setup passed id node span) node.operands :=
    fails.mono fun _ passed => Or.inl (Or.inl passed)
  have claimed : ∀ {body : Evaluation Address}, body.FailsWith
      (Failure.Claimable passed (span :: node.operands.map setup.program.spanOf)) →
        (located span body).FailsWith (Failure.OfExpression setup passed id node span) :=
    fun fails => (fails.claimed traceable).mono fun _ => Or.inl
  cases node with
  | assign target value =>
      obtain ⟨raised, broken, rfl⟩ := failure_located failed
      refine Or.inl (Failure.Claimable.locate traceable ?_ List.mem_cons_self)
      exact fails.assign (List.mem_cons_of_mem _ List.mem_cons_self)
        (fun failure last => targets target failure last rfl) broken
  | literal value => exact (FailsWith.literal _ id value).blamed failed
  | reference name => exact (claimed (variableCopy_fails name).claimable).blamed failed
  | unary operator operand =>
      refine FailsWith.blamed ?_ failed
      exact (came.evaluate operand List.mem_cons_self).bind fun address =>
        claimed (applyUnary_claimable operator address)
  | arithmetic first rest =>
      refine FailsWith.blamed (claimed ?_) failed
      exact (fails.claimable List.mem_cons_self).bind fun left =>
        fails.arithmeticChain left (List.subset_cons_self _ _)
  | comparison first rest =>
      refine FailsWith.blamed (claimed ?_) failed
      exact (fails.claimable List.mem_cons_self).bind fun left =>
        fails.comparisonChain left (List.subset_cons_self _ _)
  | cast source =>
      refine FailsWith.blamed (FailsWith.bind ?_ fun target =>
        (came.evaluate source List.mem_cons_self).bind fun address =>
          claimed (applyCast_claimable address target)) failed
      unfold recordedType
      cases recorded : setup.program.types.expression? id with
      | some type => exact .pure type
      | none => exact .fail _ (Or.inr ⟨rfl, .untyped found recorded rfl⟩)
  | vector elements =>
      refine FailsWith.blamed (claimed ?_) failed
      exact (recordedType_claimable id).bind fun _ =>
        (fails.evaluateAll (List.Subset.refl _)).bind fun _ => .onHeap _
  | dict entries =>
      refine FailsWith.blamed (claimed ?_) failed
      exact (recordedType_claimable id).bind fun _ =>
        (fails.evaluatePairs (List.Subset.refl _)).bind fun _ => .onHeap _
  | range begins ends =>
      have slips : ∀ kind, Failure.OfExpression setup passed id (.range begins ends) span
          (.of (.typeMismatch "int" kind)) := fun kind => Or.inr ⟨rfl, .bound kind found rfl⟩
      refine FailsWith.blamed ?_ failed
      exact (came.bound List.mem_cons_self slips).bind fun low =>
        (came.bound (List.mem_cons_of_mem _ List.mem_cons_self) slips).bind fun high => .onHeap _
  | index base indices =>
      refine FailsWith.blamed ((came.shareIndexed (List.Subset.refl _) ?_).bind fun element =>
        (FailsWith.onHeap _).holding [element]) failed
      intro cause index member
      refine Or.inl (Or.inr ⟨setup.program.spanOf index, ?_, rfl⟩)
      exact List.mem_cons_of_mem _ (List.mem_map_of_mem (List.mem_cons_of_mem _ member))
  | call callee arguments =>
      refine FailsWith.blamed (claimed ((fails.evaluateAll (List.Subset.refl _)).bind
        fun addresses => ?_)) failed
      cases callee with
      | builtin name => exact callBuiltin_claimable unlocated name addresses
      | user function => exact calls function addresses

theorem sharedExpression {id : ExpressionId}
    (failed : Evaluation.sharedExpression setup operands id node span start =
      .failure failure last) :
    failure.OfShared setup passed (operands.evaluate id start) node span last := by
  cases node with
  | reference name =>
      exact ((shareVariable_fails name).claimable.claimed traceable).blamed failed
  | index base indices =>
      refine (FailsWith.claimed ?_ traceable).blamed failed
      apply (fails.mono fun _ came => Or.inr (Or.inl came)).shareIndexed (List.Subset.refl _)
      intro cause index member
      refine Or.inr (Or.inr ⟨setup.program.spanOf index, ?_, rfl⟩)
      exact List.mem_cons_of_mem _ (List.mem_map_of_mem (List.mem_cons_of_mem _ member))
  | _ => exact failure_located failed

end Operands.FailWith

/-! ### Statements -/

/-- What all failures of the nodes inside a statement are like. -/
structure Nested.FailWith (blames : Failure → Prop) (nested : Nested) (node : Statement) :
    Prop where
  evaluate : ∀ id ∈ node.expressions, (nested.evaluate id).FailsWith blames
  execute : ∀ id ∈ node.parts, (nested.execute id).FailsWith blames

theorem Nested.FailWith.mono {blames blames' : Failure → Prop} {nested : Nested}
    {node : Statement} (fails : nested.FailWith blames node)
    (implies : ∀ failure, blames failure → blames' failure) : nested.FailWith blames' node :=
  ⟨fun id member => (fails.evaluate id member).mono implies,
    fun id member => (fails.execute id member).mono implies⟩

namespace Evaluation

variable {passed blames : Failure → Prop} {nested : Nested} {body : Block}

theorem block_fails (fails : ∀ id ∈ body.statements, (nested.execute id).FailsWith blames) :
    (block nested body).FailsWith blames :=
  (FailsWith.sequence fails).inScope

theorem iteration_fails (fails : ∀ id ∈ body.statements, (nested.execute id).FailsWith blames)
    (binding : Option (Name × Address)) : (iteration nested binding body).FailsWith blames := by
  apply FailsWith.inScope
  have rest := (FailsWith.sequence fails).bind fun _ => @FailsWith.read _ blames (!·.loopFinished)
  cases binding with
  | some pair => exact (FailsWith.declare pair.1 pair.2).bind fun _ => rest
  | none => exact (FailsWith.pure ()).bind fun _ => rest

theorem forEachFrom_fails (fails : ∀ id ∈ body.statements, (nested.execute id).FailsWith blames)
    (name : Name) (count : Nat) (items : Items) :
    (forEachFrom nested name body count items).FailsWith blames := by
  induction count generalizing items with
  | zero => exact .stop _
  | succ count induction =>
      apply (FailsWith.onHeap _).bind
      intro next
      cases next with
      | none => exact .pure ()
      | some pair =>
          apply (iteration_fails fails (some (name, pair.1))).bind
          intro goesOn
          cases goesOn with
          | true => exact induction pair.2
          | false => exact .pure ()

theorem breakLoop_fails : breakLoop.FailsWith (· = .of .breakOutsideLoop) := by
  refine ⟨fun {start last failure} failed => ?_⟩
  unfold breakLoop at failed
  cases left : start.loops.break? start.calls.loopBase with
  | some loops => simp [left] at failed
  | none =>
      simp only [left] at failed
      exact (Outcome.failure.inj failed).1.symm

theorem continueLoop_fails : continueLoop.FailsWith (· = .of .continueOutsideLoop) := by
  refine ⟨fun {start last failure} failed => ?_⟩
  unfold continueLoop at failed
  cases inside : start.loops.innermost? start.calls.loopBase with
  | some frame => simp [inside] at failed
  | none =>
      simp only [inside] at failed
      exact (Outcome.failure.inj failed).1.symm

theorem setResult_fails (value : Address) :
    (setResult value).FailsWith (· = .of .returnOutsideFunction) := by
  refine ⟨fun {start last failure} failed => ?_⟩
  unfold setResult at failed
  cases active : start.calls.current? with
  | some frame => simp [active] at failed
  | none =>
      simp only [active] at failed
      exact (Outcome.failure.inj failed).1.symm

/-- A condition fails as its expression does, or is blamed on that. -/
theorem condition_fails {operands : Operands} {test : ExpressionId}
    (fails : (operands.evaluate test).FailsWith blames)
    (mismatch : ∀ kind,
      blames ((Failure.of (.typeMismatch "bool" kind)).locate (setup.program.spanOf test))) :
    (condition setup operands test).FailsWith blames := by
  apply fails.bind
  intro address
  refine FailsWith.holding (FailsWith.reading fun state => ?_) [address]
  apply ofExcept_located
  intro cause erroneous
  split at erroneous
  · simp at erroneous
  · rw [← Except.error.inj erroneous]
    exact mismatch _

theorem whileFrom_fails {test : ExpressionId}
    (tests : (condition setup nested.toOperands test).FailsWith blames)
    (fails : ∀ id ∈ body.statements, (nested.execute id).FailsWith blames) (count : Nat) :
    (whileFrom setup nested test body count).FailsWith blames := by
  induction count with
  | zero => exact .stop _
  | succ count induction =>
      apply tests.bind
      intro holds
      cases holds with
      | false => exact .pure ()
      | true =>
          apply (iteration_fails fails none).bind
          intro goesOn
          cases goesOn with
          | true => exact induction
          | false => exact .pure ()

theorem doWhileFrom_fails {test : ExpressionId}
    (tests : (condition setup nested.toOperands test).FailsWith blames)
    (fails : ∀ id ∈ body.statements, (nested.execute id).FailsWith blames) (count : Nat) :
    (doWhileFrom setup nested body test count).FailsWith blames := by
  induction count with
  | zero => exact .stop _
  | succ count induction =>
      apply (iteration_fails fails none).bind
      intro goesOn
      cases goesOn with
      | false => exact .pure ()
      | true =>
          apply tests.bind
          intro holds
          cases holds with
          | true => exact induction
          | false => exact .pure ()

theorem foreverFrom_fails (fails : ∀ id ∈ body.statements, (nested.execute id).FailsWith blames)
    (count : Nat) : (foreverFrom nested body count).FailsWith blames := by
  induction count with
  | zero => exact .stop _
  | succ count induction =>
      apply (iteration_fails fails none).bind
      intro goesOn
      cases goesOn with
      | true => exact induction
      | false => exact .pure ()

theorem forEach_fails {iterable : ExpressionId} (fails : (nested.evaluate iterable).FailsWith blames)
    (mismatch : ∀ kind,
      blames ((Failure.of (.typeMismatch "iterable" kind)).locate (setup.program.spanOf iterable)))
    (bodies : ∀ id ∈ body.statements, (nested.execute id).FailsWith blames) (name : Name) :
    (forEach setup nested name iterable body).FailsWith blames := by
  apply fails.bind
  intro source
  apply (FailsWith.read _).bind
  intro items?
  have loops : ∀ items, (inLoop (forEachFrom nested name body nested.iterations items)).FailsWith
      blames := fun items => (forEachFrom_fails bodies name _ items).inLoop
  cases items? with
  | none =>
      apply FailsWith.holding
      apply FailsWith.reading
      intro state
      exact fail_located (mismatch _)
  | some items =>
      cases items with
      | integers next stop => exact (FailsWith.release _).bind fun _ => loops _
      | _ => exact (loops _).holding _

end Evaluation

/-- A statement claims what is not blamed on it or on an expression that it
evaluates itself, unless it came out of a node inside. -/
theorem Nested.FailWith.statement {passed : Failure → Prop} {nested : Nested} {node : Statement}
    {span : Span} (fails : nested.FailWith passed node)
    (traceable : Failure.Traceable setup.program.names span passed) (id : StatementId) :
    (Evaluation.statement setup nested id node span).FailsWith
      (Failure.Blamed passed (span :: node.expressions.map setup.program.spanOf)) := by
  let spans := span :: node.expressions.map setup.program.spanOf
  have came : ∀ failure, passed failure → failure.Claimable passed spans :=
    fun _ came => Or.inr (Or.inl came)
  have blames : ∀ (cause : Cause), ∀ value ∈ node.expressions,
      ((Failure.of cause).locate (setup.program.spanOf value)).Blamed passed spans :=
    fun _ value member => Or.inr ⟨_, List.mem_cons_of_mem _ (List.mem_map_of_mem member), rfl⟩
  have evaluates : ∀ value ∈ node.expressions,
      (nested.evaluate value).FailsWith (Failure.Claimable passed spans) :=
    fun value member => (fails.evaluate value member).mono came
  have executes : ∀ part ∈ node.parts,
      (nested.execute part).FailsWith (Failure.Claimable passed spans) :=
    fun part member => (fails.execute part member).mono came
  cases node with
  | expression value =>
      refine FailsWith.claimed ?_ traceable
      exact (evaluates value List.mem_cons_self).bind fun address => .release [address]
  | declare name value =>
      refine FailsWith.claimed (FailsWith.bind ?_ fun address => .declare name address) traceable
      cases value with
      | some value => exact evaluates value List.mem_cons_self
      | none =>
          unfold initialValue
          cases setup.program.types.declaration? id with
          | some type => exact .onHeap _
          | none => exact raised _
  | block body => exact FailsWith.claimed (block_fails executes) traceable
  | branch test body otherwise =>
      refine FailsWith.bind ?_ fun holds => FailsWith.claimed ?_ traceable
      · exact condition_fails ((fails.evaluate test List.mem_cons_self).mono fun _ => Or.inl)
          fun kind => blames (.typeMismatch "bool" kind) test List.mem_cons_self
      cases holds with
      | true => exact block_fails fun part member => executes part (List.mem_append_left _ member)
      | false =>
          cases otherwise with
          | none => exact .pure ()
          | some statement =>
              exact executes statement (List.mem_append_right _ List.mem_cons_self)
  | forEach name iterable body =>
      refine FailsWith.claimed ?_ traceable
      exact forEach_fails (evaluates iterable List.mem_cons_self)
        (fun kind => Or.inr (blames (.typeMismatch "iterable" kind) iterable List.mem_cons_self))
        executes name
  | whileLoop test body =>
      refine FailsWith.claimed (FailsWith.inLoop ?_) traceable
      exact whileFrom_fails (condition_fails (evaluates test List.mem_cons_self) fun kind =>
        Or.inr (blames (.typeMismatch "bool" kind) test List.mem_cons_self)) executes _
  | doWhile body test =>
      refine FailsWith.claimed (FailsWith.inLoop ?_) traceable
      exact doWhileFrom_fails (condition_fails (evaluates test List.mem_cons_self) fun kind =>
        Or.inr (blames (.typeMismatch "bool" kind) test List.mem_cons_self)) executes _
  | forever body => exact FailsWith.claimed (foreverFrom_fails executes _).inLoop traceable
  | breakLoop => exact breakLoop_fails.claimable.claimed traceable
  | continueLoop => exact continueLoop_fails.claimable.claimed traceable
  | giveBack value =>
      refine FailsWith.claimed (FailsWith.bind ?_ fun address =>
        (setResult_fails address).claimable) traceable
      apply (FailsWith.read _).bind
      intro outside
      cases outside with
      | true => exact raised _
      | false =>
          cases value with
          | some value => exact evaluates value List.mem_cons_self
          | none => exact FailsWith.onHeap (·.newScalar .none)

/-! ## Everything that is reported -/

namespace Operands.FailWith

variable {operands : Operands} {node : Expression}
  (fails : operands.FailWith (Failure.Placed setup) node.operands)
include fails

theorem expression_placed {invoke : FunctionId → List Address → Span → Evaluation Address}
    {id : ExpressionId} {span : Span}
    (found : setup.program.expression? id = some ⟨node, span⟩) :
    (Evaluation.expression setup operands invoke id node span).FailsWith
      (Failure.Placed setup) := by
  cases node with
  | literal value => exact .literal _ id value
  | reference name => exact placed_located span _
  | unary operator operand =>
      exact (fails.evaluate operand List.mem_cons_self).bind fun _ => placed_located span _
  | arithmetic first rest => exact placed_located span _
  | comparison first rest => exact placed_located span _
  | cast source =>
      refine FailsWith.bind ?_ fun target =>
        (fails.evaluate source List.mem_cons_self).bind fun _ => placed_located span _
      unfold recordedType
      cases recorded : setup.program.types.expression? id with
      | some type => exact .pure type
      | none => exact .fail _ (Or.inr ⟨id, .untyped found recorded rfl⟩)
  | vector elements => exact placed_located span _
  | dict entries => exact placed_located span _
  | range begins ends =>
      have slips : ∀ kind, Failure.Placed setup (.of (.typeMismatch "int" kind)) :=
        fun kind => Or.inr ⟨id, .bound kind found rfl⟩
      exact (fails.bound List.mem_cons_self slips).bind fun low =>
        (fails.bound (List.mem_cons_of_mem _ List.mem_cons_self) slips).bind fun high => .onHeap _
  | index base indices =>
      exact (fails.shareIndexed (List.Subset.refl _) fun _ _ _ => Failure.Placed.locate _ _).bind
        fun element => (FailsWith.onHeap _).holding [element]
  | call callee arguments => exact placed_located span _
  | assign target value => exact placed_located span _

end Operands.FailWith

namespace Nested

theorem statement_placed {nested : Nested}
    (fails : ∀ id, (nested.evaluate id).FailsWith (Failure.Placed setup)) (id : StatementId)
    (node : Statement) (span : Span) :
    (Evaluation.statement setup nested id node span).FailsWith (Failure.Placed setup) := by
  cases node with
  | expression value => exact placed_located span _
  | declare name value => exact placed_located span _
  | block body => exact placed_located span _
  | branch test body otherwise =>
      -- only the condition is left before the statement claims anything
      exact (condition_fails (fails test) fun _ => Failure.Placed.locate _ _).bind
        fun _ => placed_located span _
  | forEach name iterable body => exact placed_located span _
  | whileLoop test body => exact placed_located span _
  | doWhile body test => exact placed_located span _
  | forever body => exact placed_located span _
  | breakLoop => exact placed_located span _
  | continueLoop => exact placed_located span _
  | giveBack value => exact placed_located span _

theorem operands_placed (setup : Setup) (fuel : Nat) (ids : List ExpressionId) :
    (withFuel setup fuel).toOperands.FailWith (Failure.Placed setup) ids := by
  induction fuel generalizing ids with
  | zero => exact ⟨fun _ _ => .stop _, fun _ _ => .stop _⟩
  | succ fuel induction =>
      constructor
      · intro id _
        show (withExpression setup id _).FailsWith _
        unfold withExpression
        cases found : setup.program.expression? id with
        | none => exact .stop _
        | some located => exact (induction located.node.operands).expression_placed found
      · intro id _
        show (withExpression setup id _).FailsWith _
        unfold withExpression
        cases setup.program.expression? id with
        | none => exact .stop _
        | some located => exact placed_located _ _

theorem evaluate_placed (setup : Setup) (fuel : Nat) (id : ExpressionId) :
    ((withFuel setup fuel).evaluate id).FailsWith (Failure.Placed setup) :=
  (operands_placed setup fuel [id]).evaluate id List.mem_cons_self

theorem execute_placed (setup : Setup) (fuel : Nat) (id : StatementId) :
    ((withFuel setup fuel).execute id).FailsWith (Failure.Placed setup) := by
  cases fuel with
  | zero => exact .stop _
  | succ fuel =>
      show (withStatement setup id _).FailsWith _
      unfold withStatement
      cases setup.program.statement? id with
      | none => exact .stop _
      | some located => exact statement_placed (evaluate_placed setup fuel) id _ _

end Nested

end ScriptEngine
