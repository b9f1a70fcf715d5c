import ScriptEngine.Proofs.Control.Blame
import ScriptEngine.Source.Builder

/-!
# What builders make

A call of a builder may refer to nodes and functions that earlier calls made.
In the program that a sequence of such calls makes, a node refers to earlier
nodes of its own sort alone, everything that is referred to exists, and a type
is recorded wherever a run looks for one.  Only the bodies of functions are
filled in later, so that functions can refer to one another.
-/

namespace ScriptEngine

/-! ## What nodes refer to -/

/-- The function of the program that an expression calls. -/
def Expression.callee? : Expression → Option FunctionId
  | .call (.user function) _ => some function
  | _ => none

/-- Expressions that are not evaluated without a recorded type. -/
def Expression.NeedsType : Expression → Prop
  | .cast _ | .vector _ | .dict _ => True
  | _ => False

namespace Statement

/-- A declaration that starts with the default of a recorded type. -/
def NeedsType : Statement → Prop
  | .declare _ none => True
  | _ => False

end Statement

namespace Program

def HasExpression (program : Program) (id : ExpressionId) : Prop :=
  id.index < program.expressions.size

def HasStatement (program : Program) (id : StatementId) : Prop :=
  id.index < program.statements.size

def HasFunction (program : Program) (id : FunctionId) : Prop :=
  id.index < program.functions.size

instance (program : Program) (id : ExpressionId) : Decidable (program.HasExpression id) :=
  inferInstanceAs (Decidable (_ < _))

instance (program : Program) (id : FunctionId) : Decidable (program.HasFunction id) :=
  inferInstanceAs (Decidable (_ < _))

structure WellFormed (program : Program) : Prop where
  operands : ∀ {id located}, program.expression? id = some located →
    ∀ operand ∈ located.node.operands, operand.index < id.index
  callees : ∀ {id located}, program.expression? id = some located →
    ∀ function ∈ located.node.callee?, program.HasFunction function
  expressionTypes : ∀ {id located}, program.expression? id = some located →
    located.node.NeedsType → (program.types.expression? id).isSome
  values : ∀ {id located}, program.statement? id = some located →
    ∀ value ∈ located.node.expressions, program.HasExpression value
  parts : ∀ {id located}, program.statement? id = some located →
    ∀ part ∈ located.node.parts, part.index < id.index
  declarationTypes : ∀ {id located}, program.statement? id = some located →
    located.node.NeedsType → (program.types.declaration? id).isSome
  bodies : ∀ {id function}, program.function? id = some function →
    ∀ statement ∈ function.body.statements, program.HasStatement statement

/-! ## Programs that grow -/

theorem hasExpression_of_expression? {program : Program} {id : ExpressionId}
    {located : Located Expression} (found : program.expression? id = some located) :
    program.HasExpression id :=
  (Array.getElem?_eq_some_iff.mp found).1

theorem hasStatement_of_statement? {program : Program} {id : StatementId}
    {located : Located Statement} (found : program.statement? id = some located) :
    program.HasStatement id :=
  (Array.getElem?_eq_some_iff.mp found).1

theorem HasExpression.found {program : Program} {id : ExpressionId}
    (known : program.HasExpression id) : ∃ located, program.expression? id = some located :=
  ⟨_, Array.getElem?_eq_getElem known⟩

theorem HasStatement.found {program : Program} {id : StatementId}
    (known : program.HasStatement id) : ∃ located, program.statement? id = some located :=
  ⟨_, Array.getElem?_eq_getElem known⟩

theorem HasFunction.found {program : Program} {id : FunctionId}
    (known : program.HasFunction id) : ∃ function, program.function? id = some function :=
  ⟨_, Array.getElem?_eq_getElem known⟩

variable {program : Program}

/-- An expression is the new one or an old one. -/
theorem expression?_addExpression {node : Expression} {span : Span} {id : ExpressionId}
    {located : Located Expression}
    (found : (program.addExpression node span).2.expression? id = some located) :
    program.expression? id = some located ∨
      id = (program.addExpression node span).1 ∧ located = ⟨node, span⟩ := by
  unfold expression? addExpression at found
  rw [Array.getElem?_push] at found
  split at found
  · rename_i last
    refine Or.inr ⟨?_, (Option.some.inj found).symm⟩
    cases id
    exact congrArg ExpressionId.mk last
  · exact Or.inl found

theorem statement?_addStatement {node : Statement} {span : Span} {id : StatementId}
    {located : Located Statement}
    (found : (program.addStatement node span).2.statement? id = some located) :
    program.statement? id = some located ∨
      id = (program.addStatement node span).1 ∧ located = ⟨node, span⟩ := by
  unfold statement? addStatement at found
  rw [Array.getElem?_push] at found
  split at found
  · rename_i last
    refine Or.inr ⟨?_, (Option.some.inj found).symm⟩
    cases id
    exact congrArg StatementId.mk last
  · exact Or.inl found

theorem function?_addFunction {function other : Function} {id : FunctionId}
    (found : (program.addFunction function).2.function? id = some other) :
    program.function? id = some other ∨ other = function := by
  unfold function? addFunction at found
  rw [Array.getElem?_push] at found
  split at found
  · exact Or.inr (Option.some.inj found).symm
  · exact Or.inl found

theorem isSome_expression?_recordExpression {id other : ExpressionId} {type : StaticType}
    (recorded : id = other ∨ (program.types.expression? other).isSome) :
    ((program.recordExpression id type).types.expression? other).isSome := by
  unfold recordExpression TypeTable.recordExpression TypeTable.expression?
  rw [Std.HashMap.getElem?_insert]
  split
  · rfl
  · rename_i different
    exact recorded.resolve_left (by simpa using different)

theorem isSome_declaration?_recordDeclaration {id other : StatementId} {type : StaticType}
    (recorded : id = other ∨ (program.types.declaration? other).isSome) :
    ((program.recordDeclaration id type).types.declaration? other).isSome := by
  unfold recordDeclaration TypeTable.recordDeclaration TypeTable.declaration?
  rw [Std.HashMap.getElem?_insert]
  split
  · rfl
  · rename_i different
    exact recorded.resolve_left (by simpa using different)

namespace WellFormed

theorem hasOperands (wellFormed : program.WellFormed) {id : ExpressionId}
    {located : Located Expression} (found : program.expression? id = some located) :
    ∀ operand ∈ located.node.operands, program.HasExpression operand :=
  fun operand member =>
    (wellFormed.operands found operand member).trans (hasExpression_of_expression? found)

theorem hasParts (wellFormed : program.WellFormed) {id : StatementId}
    {located : Located Statement} (found : program.statement? id = some located) :
    ∀ part ∈ located.node.parts, program.HasStatement part :=
  fun part member =>
    (wellFormed.parts found part member).trans (hasStatement_of_statement? found)

/-- Names take no part. -/
theorem rename (wellFormed : program.WellFormed) (names : Interner) :
    ({ program with names := names } : Program).WellFormed :=
  ⟨wellFormed.operands, wellFormed.callees, wellFormed.expressionTypes, wellFormed.values,
    wellFormed.parts, wellFormed.declarationTypes, wellFormed.bodies⟩

/-- A new expression, with a type or without. -/
theorem addExpression (wellFormed : program.WellFormed) {node : Expression} (span : Span)
    {types : TypeTable}
    (operands : ∀ operand ∈ node.operands, program.HasExpression operand)
    (callees : ∀ function ∈ node.callee?, program.HasFunction function)
    (old : ∀ id, (program.types.expression? id).isSome → (types.expression? id).isSome)
    (declarations : types.declarations = program.types.declarations)
    (typed : node.NeedsType → (types.expression? (program.addExpression node span).1).isSome) :
    ({ (program.addExpression node span).2 with types := types } : Program).WellFormed := by
  constructor
  · intro id located found
    rcases expression?_addExpression found with earlier | ⟨rfl, rfl⟩
    · exact wellFormed.operands earlier
    · exact operands
  · intro id located found
    rcases expression?_addExpression found with earlier | ⟨rfl, rfl⟩
    · exact wellFormed.callees earlier
    · exact callees
  · intro id located found needed
    rcases expression?_addExpression found with earlier | ⟨rfl, rfl⟩
    · exact old id (wellFormed.expressionTypes earlier needed)
    · exact typed needed
  · intro id located found value member
    have small := wellFormed.values found value member
    simp only [HasExpression, Program.addExpression, Array.size_push] at small ⊢
    exact Nat.lt_succ_of_lt small
  · exact wellFormed.parts
  · intro id located found needed
    rw [TypeTable.declaration?, declarations]
    exact wellFormed.declarationTypes found needed
  · exact wellFormed.bodies

theorem addStatement (wellFormed : program.WellFormed) {node : Statement} (span : Span)
    {types : TypeTable}
    (values : ∀ value ∈ node.expressions, program.HasExpression value)
    (parts : ∀ part ∈ node.parts, program.HasStatement part)
    (old : ∀ id, (program.types.declaration? id).isSome → (types.declaration? id).isSome)
    (expressions : types.expressions = program.types.expressions)
    (typed : node.NeedsType → (types.declaration? (program.addStatement node span).1).isSome) :
    ({ (program.addStatement node span).2 with types := types } : Program).WellFormed := by
  constructor
  · exact wellFormed.operands
  · exact wellFormed.callees
  · intro id located found needed
    rw [TypeTable.expression?, expressions]
    exact wellFormed.expressionTypes found needed
  · intro id located found
    rcases statement?_addStatement found with earlier | ⟨rfl, rfl⟩
    · exact wellFormed.values earlier
    · exact values
  · intro id located found
    rcases statement?_addStatement found with earlier | ⟨rfl, rfl⟩
    · exact wellFormed.parts earlier
    · exact parts
  · intro id located found needed
    rcases statement?_addStatement found with earlier | ⟨rfl, rfl⟩
    · exact old id (wellFormed.declarationTypes earlier needed)
    · exact typed needed
  · intro id function found statement member
    have small := wellFormed.bodies found statement member
    simp only [HasStatement, Program.addStatement, Array.size_push] at small ⊢
    exact Nat.lt_succ_of_lt small

theorem addFunction (wellFormed : program.WellFormed) {function : Function}
    (body : ∀ statement ∈ function.body.statements, program.HasStatement statement) :
    (program.addFunction function).2.WellFormed := by
  refine ⟨wellFormed.operands, ?_, wellFormed.expressionTypes, wellFormed.values,
    wellFormed.parts, wellFormed.declarationTypes, ?_⟩
  · intro id located found callee member
    have small := wellFormed.callees found callee member
    simp only [HasFunction, Program.addFunction, Array.size_push] at small ⊢
    exact Nat.lt_succ_of_lt small
  · intro id other found
    rcases function?_addFunction found with earlier | rfl
    · exact wellFormed.bodies earlier
    · exact body

/-- A function gets another body. -/
theorem modifyFunction? (wellFormed : program.WellFormed) {id : FunctionId} {body : Block}
    {after : Program} (known : ∀ statement ∈ body.statements, program.HasStatement statement)
    (modified : program.modifyFunction? id ({ · with body := body }) = some after) :
    after.WellFormed := by
  unfold Program.modifyFunction? at modified
  split at modified
  · rw [← Option.some.inj modified]
    refine ⟨wellFormed.operands, ?_, wellFormed.expressionTypes, wellFormed.values,
      wellFormed.parts, wellFormed.declarationTypes, ?_⟩
    · intro other located found callee member
      simpa [HasFunction] using wellFormed.callees found callee member
    · intro other function found
      rw [Program.function?, Array.getElem?_modify] at found
      split at found
      · obtain ⟨earlier, _, rfl⟩ := Option.map_eq_some_iff.mp found
        exact known
      · exact wellFormed.bodies found
  · simp at modified

end WellFormed

end Program

/-! ## Calls of a builder -/

namespace Builder

def HasAll (builder : Builder) (ids : List ExpressionId) : Prop :=
  ∀ id ∈ ids, builder.program.HasExpression id

instance (builder : Builder) (ids : List ExpressionId) : Decidable (builder.HasAll ids) :=
  inferInstanceAs (Decidable (∀ id ∈ ids, builder.program.HasExpression id))

/-- One call of a builder, which refers to what is there. -/
inductive Step (builder : Builder) : Builder → Prop where
  | intern (string : String) : Step builder (builder.intern string).2
  | literal (value : Literal) : Step builder (builder.literal value).2
  | string (contents : String) : Step builder (builder.string contents).2
  | reference (name : String) : Step builder (builder.reference name).2
  | unary (operator : UnaryOperator) (operand : ExpressionId) :
      builder.HasAll [operand] → Step builder (builder.unary operator operand).2
  | arithmetic (first : ExpressionId) (rest : List (ArithmeticOperator × ExpressionId)) :
      builder.HasAll (first :: rest.map Prod.snd) →
      Step builder (builder.arithmetic first rest).2
  | comparison (first : ExpressionId) (rest : List (ComparisonOperator × ExpressionId)) :
      builder.HasAll (first :: rest.map Prod.snd) →
      Step builder (builder.comparison first rest).2
  | cast (source : ExpressionId) (target : StaticType) :
      builder.HasAll [source] → Step builder (builder.cast source target).2
  | vector (elements : List ExpressionId) (element : StaticType) :
      builder.HasAll elements → Step builder (builder.vector elements element).2
  | dict (entries : List (ExpressionId × ExpressionId)) (key value : StaticType) :
      builder.HasAll (entries.flatMap fun entry => [entry.1, entry.2]) →
      Step builder (builder.dict entries key value).2
  | range (start stop : ExpressionId) :
      builder.HasAll [start, stop] → Step builder (builder.range start stop).2
  | index (base : ExpressionId) (indices : List ExpressionId) :
      builder.HasAll (base :: indices) → Step builder (builder.index base indices).2
  | call (function : FunctionId) (arguments : List ExpressionId) {id : ExpressionId}
      {after : Builder} :
      builder.HasAll arguments → builder.call? function arguments = some (id, after) →
      Step builder after
  | callBuiltin (name : String) (arguments : List ExpressionId) :
      builder.HasAll arguments → Step builder (builder.callBuiltin name arguments).2
  | assign (target value : ExpressionId) :
      builder.HasAll [target, value] → Step builder (builder.assign target value).2
  | expressionStatement (value : ExpressionId) :
      builder.HasAll [value] → Step builder (builder.expressionStatement value).2
  | declareValue (name : String) (value : ExpressionId) :
      builder.HasAll [value] → Step builder (builder.declareValue name value).2
  | declareDefault (name : String) (type : StaticType) :
      Step builder (builder.declareDefault name type).2
  | blockStatement (statements : List StatementId) {id : StatementId} {after : Builder} :
      builder.blockStatement? statements = some (id, after) → Step builder after
  | branch (condition : ExpressionId) (statements : List StatementId)
      (otherwise : Option StatementId) {id : StatementId} {after : Builder} :
      builder.HasAll [condition] →
      (∀ statement ∈ otherwise, builder.program.HasStatement statement) →
      builder.branch? condition statements otherwise = some (id, after) → Step builder after
  | forEach (name : String) (iterable : ExpressionId) (statements : List StatementId)
      {id : StatementId} {after : Builder} :
      builder.HasAll [iterable] →
      builder.forEach? name iterable statements = some (id, after) → Step builder after
  | whileLoop (condition : ExpressionId) (statements : List StatementId) {id : StatementId}
      {after : Builder} :
      builder.HasAll [condition] →
      builder.whileLoop? condition statements = some (id, after) → Step builder after
  | doWhile (statements : List StatementId) (condition : ExpressionId) {id : StatementId}
      {after : Builder} :
      builder.HasAll [condition] →
      builder.doWhile? statements condition = some (id, after) → Step builder after
  | forever (statements : List StatementId) {id : StatementId} {after : Builder} :
      builder.forever? statements = some (id, after) → Step builder after
  | breakLoop : Step builder builder.breakLoop.2
  | continueLoop : Step builder builder.continueLoop.2
  | giveBack (value : Option ExpressionId) :
      builder.HasAll value.toList → Step builder (builder.giveBack value).2
  | declareFunction (name : String) (parameters : List (String × StaticType))
      (result : StaticType) : Step builder (builder.declareFunction name parameters result).2
  | defineBody (function : FunctionId) (statements : List StatementId) {after : Builder} :
      builder.defineBody? function statements = some after → Step builder after
  | function (name : String) (parameters : List (String × StaticType)) (result : StaticType)
      (statements : List StatementId) {id : FunctionId} {after : Builder} :
      builder.function? name parameters result statements = some (id, after) →
      Step builder after

/-- Made by calls that each refer to what earlier ones made, starting from
nothing but names. -/
inductive Built : Builder → Prop where
  | start (names : Interner) : Built { program := { names := names } }
  | step {builder after : Builder} : Built builder → builder.Step after → Built after

variable {builder after : Builder}

/-! ## What a call leaves well-formed -/

/-- Where a call goes through, and what it goes to. -/
theorem exists_of_map {α β : Type} {found? : Option α} {make : α → β × Builder} {id : β}
    (made : found?.map make = some (id, after)) :
    ∃ found, found? = some found ∧ (make found).2 = after := by
  obtain ⟨found, here, same⟩ := Option.map_eq_some_iff.mp made
  exact ⟨found, here, congrArg Prod.snd same⟩

/-- The statements of a block exist. -/
theorem hasStatement_of_block? {statements : List StatementId} {body : Block}
    (made : builder.block? statements = some body) :
    body.statements = statements ∧
      ∀ statement ∈ statements, builder.program.HasStatement statement := by
  unfold block? at made
  obtain ⟨spans, found, rfl⟩ := Option.map_eq_some_iff.mp made
  refine ⟨rfl, ?_⟩
  clear made
  induction statements generalizing spans with
  | nil => simp
  | cons first others induction =>
      rw [List.mapM_cons] at found
      obtain ⟨span, here, found⟩ := Option.bind_eq_some_iff.mp found
      obtain ⟨rest, there, _⟩ := Option.bind_eq_some_iff.mp found
      obtain ⟨located, known, _⟩ := Option.map_eq_some_iff.mp here
      intro statement member
      rcases List.mem_cons.mp member with rfl | member
      · exact Program.hasStatement_of_statement? known
      · exact induction rest there statement member

section

variable (wellFormed : builder.program.WellFormed)
include wellFormed

theorem expression_wellFormed {node : Expression} (operands : builder.HasAll node.operands)
    (callees : ∀ function ∈ node.callee?, builder.program.HasFunction function)
    (untyped : ¬ node.NeedsType) : (builder.expression node).2.program.WellFormed :=
  wellFormed.addExpression _ operands callees (fun _ recorded => recorded) rfl
    fun needed => absurd needed untyped

theorem typedExpression_wellFormed (node : Expression)
    (operands : builder.HasAll node.operands)
    (callees : ∀ function ∈ node.callee?, builder.program.HasFunction function)
    (type : StaticType) : (builder.typedExpression node type).2.program.WellFormed := by
  refine wellFormed.addExpression _ operands callees ?_ rfl ?_
  · intro id recorded
    exact Program.isSome_expression?_recordExpression (Or.inr recorded)
  · intro _
    exact Program.isSome_expression?_recordExpression (Or.inl rfl)

theorem statement_wellFormed {node : Statement} (values : builder.HasAll node.expressions)
    (parts : ∀ part ∈ node.parts, builder.program.HasStatement part)
    (untyped : ¬ node.NeedsType) : (builder.statement node).2.program.WellFormed :=
  wellFormed.addStatement _ values parts (fun _ recorded => recorded) rfl
    fun needed => absurd needed untyped

theorem intern_wellFormed (string : String) :
    (builder.intern string).2.program.WellFormed :=
  wellFormed.rename _

theorem declareDefault_wellFormed (name : String) (type : StaticType) :
    (builder.declareDefault name type).2.program.WellFormed := by
  refine (intern_wellFormed wellFormed name).addStatement _ ?_ ?_ ?_ rfl ?_
  · exact nofun
  · exact nofun
  · intro id recorded
    exact Program.isSome_declaration?_recordDeclaration (Or.inr recorded)
  · intro _
    exact Program.isSome_declaration?_recordDeclaration (Or.inl rfl)

/-- A statement around a block of statements that exist. -/
theorem around_wellFormed {statements : List StatementId} {body : Block} {node : Statement}
    (made : builder.block? statements = some body) (values : builder.HasAll node.expressions)
    (parts : ∀ part ∈ node.parts, part ∈ body.statements ∨ builder.program.HasStatement part)
    (untyped : ¬ node.NeedsType) : (builder.statement node).2.program.WellFormed := by
  obtain ⟨same, known⟩ := hasStatement_of_block? made
  apply statement_wellFormed wellFormed values _ untyped
  intro part member
  exact (parts part member).elim (fun inside => known part (same ▸ inside)) id

theorem declareFunction_wellFormed (name : String) (parameters : List (String × StaticType))
    (result : StaticType) :
    (builder.declareFunction name parameters result).2.program.WellFormed :=
  (wellFormed.rename _).addFunction nofun

theorem defineBody_wellFormed {function : FunctionId} {statements : List StatementId}
    (defined : builder.defineBody? function statements = some after) :
    after.program.WellFormed := by
  unfold defineBody? at defined
  obtain ⟨body, made, defined⟩ := Option.bind_eq_some_iff.mp defined
  obtain ⟨program, modified, defined⟩ := Option.bind_eq_some_iff.mp defined
  obtain ⟨same, known⟩ := hasStatement_of_block? made
  rw [← Option.some.inj defined]
  exact wellFormed.modifyFunction? (same ▸ known) modified

end

theorem Step.wellFormed (step : builder.Step after) (wellFormed : builder.program.WellFormed) :
    after.program.WellFormed := by
  cases step with
  | intern string => exact intern_wellFormed wellFormed string
  | literal value => exact typedExpression_wellFormed wellFormed (.literal value) nofun nofun _
  | string contents =>
      exact typedExpression_wellFormed (intern_wellFormed wellFormed contents) (.literal _) nofun
        nofun _
  | reference name =>
      exact expression_wellFormed (intern_wellFormed wellFormed name) nofun nofun id
  | unary operator operand known => exact expression_wellFormed wellFormed known nofun id
  | arithmetic first rest known => exact expression_wellFormed wellFormed known nofun id
  | comparison first rest known => exact expression_wellFormed wellFormed known nofun id
  | cast source target known =>
      exact typedExpression_wellFormed wellFormed (.cast source) known nofun target
  | vector elements element known =>
      exact typedExpression_wellFormed wellFormed (.vector elements) known nofun _
  | dict entries key value known =>
      exact typedExpression_wellFormed wellFormed (.dict entries) known nofun _
  | range start stop known =>
      exact typedExpression_wellFormed wellFormed (.range start stop) known nofun _
  | index base indices known => exact expression_wellFormed wellFormed known nofun id
  | call function arguments known made =>
      obtain ⟨callee, found, rfl⟩ := exists_of_map made
      apply typedExpression_wellFormed wellFormed (.call (.user function) arguments) known
      intro other called
      rw [← Option.some.inj called]
      exact (Array.getElem?_eq_some_iff.mp found).1
  | callBuiltin name arguments known =>
      exact expression_wellFormed (intern_wellFormed wellFormed name) known nofun id
  | assign target value known => exact expression_wellFormed wellFormed known nofun id
  | expressionStatement value known => exact statement_wellFormed wellFormed known nofun id
  | declareValue name value known =>
      exact statement_wellFormed (intern_wellFormed wellFormed name) known nofun id
  | declareDefault name type => exact declareDefault_wellFormed wellFormed name type
  | blockStatement statements made =>
      obtain ⟨body, block, rfl⟩ := exists_of_map made
      exact around_wellFormed wellFormed block nofun (fun _ => Or.inl) id
  | branch condition statements otherwise known other made =>
      obtain ⟨body, block, rfl⟩ := exists_of_map made
      refine around_wellFormed wellFormed block ?_ ?_ id
      · exact known
      · intro part member
        exact (List.mem_append.mp member).imp_right fun inside =>
          other part (by simpa using inside)
  | forEach name iterable statements known made =>
      obtain ⟨body, block, rfl⟩ := exists_of_map made
      refine around_wellFormed (intern_wellFormed wellFormed _) block ?_ (fun _ => Or.inl) id
      exact known
  | whileLoop condition statements known made =>
      obtain ⟨body, block, rfl⟩ := exists_of_map made
      refine around_wellFormed wellFormed block ?_ (fun _ => Or.inl) id
      exact known
  | doWhile statements condition known made =>
      obtain ⟨body, block, rfl⟩ := exists_of_map made
      refine around_wellFormed wellFormed block ?_ (fun _ => Or.inl) id
      exact known
  | forever statements made =>
      obtain ⟨body, block, rfl⟩ := exists_of_map made
      exact around_wellFormed wellFormed block nofun (fun _ => Or.inl) id
  | breakLoop => exact statement_wellFormed wellFormed nofun nofun id
  | continueLoop => exact statement_wellFormed wellFormed nofun nofun id
  | giveBack value known => exact statement_wellFormed wellFormed known nofun id
  | declareFunction name parameters result =>
      exact declareFunction_wellFormed wellFormed name parameters result
  | defineBody function statements defined => exact defineBody_wellFormed wellFormed defined
  | function name parameters result statements made =>
      obtain ⟨builder, defined, made⟩ := Option.bind_eq_some_iff.mp made
      obtain ⟨_, rfl⟩ := Prod.mk.inj (Option.some.inj made)
      exact defineBody_wellFormed (declareFunction_wellFormed wellFormed _ _ _) defined

theorem Built.wellFormed (built : builder.Built) : builder.program.WellFormed := by
  induction built with
  | start names =>
      have empty : ∀ {α : Type} {index : Nat} {entry : α}, (#[] : Array α)[index]? ≠ some entry := by
        simp
      exact ⟨fun found => absurd found empty, fun found => absurd found empty,
        fun found => absurd found empty, fun found => absurd found empty,
        fun found => absurd found empty, fun found => absurd found empty,
        fun found => absurd found empty⟩
  | step _ step induction => exact step.wellFormed induction

end Builder

end ScriptEngine
