import ScriptEngine.Interpreter.Basic
import ScriptEngine.Proofs.Control.Settling

/-!
# Runs of programs that builders make

A program that a builder makes has a type wherever a run looks for one, and
everything that a node refers to.  No run of it, whatever the state it starts
in, stops for any other reason than a lack of fuel, and none fails for lack of
a type unless a built-in function says so.
-/

namespace ScriptEngine

variable {α : Type} {setup : Setup}

/-- Every state will do, and only a lack of fuel may stop a run. -/
def Terms.anywhere (builtins : BuiltinTable) : Terms where
  builtins := builtins
  holds _ := True
  stops reason := reason = .outOfFuel
  steady _ _ _ := trivial

/-- A run that found every node and type that it looked for. -/
def Outcome.Resolved (table : BuiltinTable) : Outcome α → Prop
  | .value _ _ => True
  | .failure raised _ => raised.Typed table
  | .stopped reason => reason = .outOfFuel

/-- The functions that every interpreter starts with do not fail at all. -/
theorem BuiltinTable.standard_raises (cause : Cause) : ¬ standard.Raises cause := by
  rintro ⟨builtin, member, arguments, heap, output, failure, failed, _⟩
  rcases List.mem_pair.mp member with rfl | rfl
  · simp [Builtin.println, Builtin.write, Builtin.computed] at failed
  · simp [Builtin.print, Builtin.write, Builtin.computed] at failed

open Evaluation (Settles)

theorem Evaluation.Settles.resolved {builtins : BuiltinTable} {body : Evaluation α}
    (settles : Settles (.anywhere builtins) fun _ => body) (start : State) :
    (body start).Resolved builtins := by
  obtain ⟨outcome, meets, fuel, settled⟩ := settles start trivial
  have ended : body start = outcome := settled fuel le_rfl
  rw [ended]
  cases outcome with
  | value result last => trivial
  | failure failure last => exact meets.1
  | stopped reason => exact meets

namespace Nested.Settle

open Evaluation.Settles

variable {builtins : BuiltinTable} {known : ExpressionId → Prop} {within : StatementId → Prop}
  {nested : Nested}
  (settle : Nested.Settle (.anywhere builtins) known within fun _ => nested)
include settle

/-! ## Loops, which may run out of fuel -/

/-- A driver that stops after an iteration, or goes on. -/
theorem round (binding : Option (Name × Address)) {body : Block}
    (all : ∀ id ∈ body.statements, within id) {next : Evaluation Unit}
    (rest : Settles (.anywhere builtins) fun _ => next) :
    Settles (.anywhere builtins) fun _ =>
      Evaluation.iteration nested binding body >>= fun again =>
        if again then next else Pure.pure () := by
  apply (settle.iteration binding all).bind
  intro again
  cases again with
  | true => exact rest
  | false => exact .pure ()

theorem forEachFrom (name : Name) {body : Block} (all : ∀ id ∈ body.statements, within id)
    (count : Nat) (items : Items) :
    Settles (.anywhere builtins) fun _ =>
      Evaluation.forEachFrom nested name body count items := by
  induction count generalizing items with
  | zero => exact stop rfl
  | succ count induction =>
      apply (onHeap items.next?).bind
      intro item?
      cases item? with
      | none => exact .pure ()
      | some item => exact settle.round (some (name, item.1)) all (induction item.2)

theorem whileFrom {test : ExpressionId} (here : known test) {body : Block}
    (all : ∀ id ∈ body.statements, within id) (count : Nat) :
    Settles (.anywhere builtins) fun _ =>
      Evaluation.whileFrom setup nested test body count := by
  induction count with
  | zero => exact stop rfl
  | succ count induction =>
      apply (settle.operands.condition here).bind
      intro enters
      cases enters with
      | true => exact settle.round none all induction
      | false => exact .pure ()

theorem doWhileFrom {body : Block} (all : ∀ id ∈ body.statements, within id)
    {test : ExpressionId} (here : known test) (count : Nat) :
    Settles (.anywhere builtins) fun _ =>
      Evaluation.doWhileFrom setup nested body test count := by
  induction count with
  | zero => exact stop rfl
  | succ count induction =>
      apply settle.round none all
      apply (settle.operands.condition here).bind
      intro again
      cases again with
      | true => exact induction
      | false => exact .pure ()

theorem foreverFrom {body : Block} (all : ∀ id ∈ body.statements, within id) (count : Nat) :
    Settles (.anywhere builtins) fun _ => Evaluation.foreverFrom nested body count := by
  induction count with
  | zero => exact stop rfl
  | succ count induction => exact settle.round none all induction

theorem forEach (name : Name) {iterable : ExpressionId} (here : known iterable) {body : Block}
    (all : ∀ id ∈ body.statements, within id) :
    Settles (.anywhere builtins) fun _ =>
      Evaluation.forEach setup nested name iterable body := by
  apply (settle.operands.evaluate here).bind
  intro source
  apply (read _).bind
  intro items?
  split
  · exact (release [source]).bind fun _ => (settle.forEachFrom name all _ _).inLoop
  · exact (settle.forEachFrom name all _ _).inLoop.holding [source]
  · apply Settles.holding _ [source]
    apply (read _).bind
    intro kind
    exact Settles.located (fail (by exact trivial)) _

/-- A statement of a program settles, loops included. -/
theorem anywhere_statement {id : StatementId} {node : Statement}
    (values : ∀ value ∈ node.expressions, known value)
    (parts : ∀ part ∈ node.parts, within part)
    (recorded : node.NeedsType → (setup.program.types.declaration? id).isSome) (span : Span) :
    Settles (.anywhere builtins) fun _ => Evaluation.statement setup nested id node span := by
  apply settle.statement values parts recorded span
  intro loops
  cases node with
  | forEach name iterable body =>
      exact (settle.forEach name (values iterable List.mem_cons_self) parts).located span
  | whileLoop test body =>
      exact (settle.whileFrom (values test List.mem_cons_self) parts _).inLoop.located span
  | doWhile body test =>
      exact (settle.doWhileFrom parts (values test List.mem_cons_self) _).inLoop.located span
  | forever body => exact (settle.foreverFrom parts _).inLoop.located span
  | _ => exact loops.elim

end Nested.Settle

/-! ## Runs -/

namespace Nested

open Evaluation.Settles

/-- All nodes of a program settle, with some evaluator for the nodes inside. -/
abbrev Resolves (setup : Setup) (nested : Nested) : Prop :=
  Settle (.anywhere setup.builtins) setup.program.HasExpression setup.program.HasStatement
    fun _ => nested

variable (wellFormed : setup.program.WellFormed)
include wellFormed

theorem Resolves.callUser {nested : Nested} (settle : nested.Resolves setup) {id : FunctionId}
    (known : setup.program.HasFunction id) (arguments : List Address) (callSite : Span) :
    Settles (.anywhere setup.builtins) fun _ =>
      Evaluation.callUser setup (Evaluation.runCall setup nested) id arguments callSite := by
  obtain ⟨function, found⟩ := known.found
  apply Settles.callUser found arguments callSite
  apply entered rfl (fun _ stops => stops) (fun _ _ => trivial)
  intro state frame _ _
  exact ⟨trivial, settle.runBody (wellFormed.bodies found) arguments⟩

theorem Resolves.layer {nested : Nested} (settle : nested.Resolves setup) (iterations : Nat) :
    (Nested.layer setup (fun () => nested) iterations).Resolves setup := by
  refine ⟨⟨?_, ?_, ?_⟩, ?_⟩
  · intro id known
    obtain ⟨located, found⟩ := known.found
    apply withExpression found
    apply settle.operands.expression rfl (wellFormed.hasOperands found)
      (wellFormed.expressionTypes found)
    intro function called
    exact settle.callUser wellFormed (wellFormed.callees found function called)
  · intro id known
    obtain ⟨located, found⟩ := known.found
    have itself := settle.operands.evaluate known
    exact withExpression found
      (settle.operands.sharedExpression (wellFormed.hasOperands found) itself _)
  · intro id known
    obtain ⟨located, found⟩ := known.found
    exact withExpression found
      (settle.operands.targetExpression (wellFormed.hasOperands found) _)
  · intro id known
    obtain ⟨located, found⟩ := known.found
    exact withStatement found (settle.anywhere_statement (wellFormed.values found)
      (wellFormed.hasParts found) (wellFormed.declarationTypes found) _)

theorem withFuel_resolves (fuel : Nat) : (withFuel setup fuel).Resolves setup := by
  induction fuel with
  | zero => exact ⟨⟨fun _ => stop rfl, fun _ => stop rfl, fun _ => stop rfl⟩, fun _ => stop rfl⟩
  | succ fuel induction => exact induction.layer wellFormed fuel

end Nested

/-- Whatever calls of a builder make a program, all that its nodes refer to is
there.  A run of any of its expressions, statements or functions, from any state
and with any arguments, finds every node and every type that it looks for; only
built-in functions can fail as if one were missing, which those that every
interpreter starts with do not. -/
theorem Builder.Built.runs_resolved {builder : Builder} (built : builder.Built)
    {interpreter : Interpreter} (made : interpreter.setup.program = builder.program)
    (fuel : Nat) :
    builder.program.WellFormed ∧
    (∀ id, builder.program.HasExpression id →
      (interpreter.evaluate fuel id).Resolved interpreter.setup.builtins) ∧
    (∀ id, builder.program.HasStatement id →
      (interpreter.execute fuel id).Resolved interpreter.setup.builtins) ∧
    (∀ statements, (∀ id ∈ statements, builder.program.HasStatement id) →
      (interpreter.run fuel statements).Resolved interpreter.setup.builtins) ∧
    (∀ function arguments, builder.program.HasFunction function →
      (interpreter.call fuel function arguments).Resolved interpreter.setup.builtins) ∧
    ∀ node, ¬ BuiltinTable.standard.Raises (.missingType node) := by
  have wellFormed : interpreter.setup.program.WellFormed := made ▸ built.wellFormed
  have settle := Nested.withFuel_resolves wellFormed fuel
  rw [← made]
  refine ⟨wellFormed, ?_, ?_, ?_, ?_, fun _ => BuiltinTable.standard_raises _⟩
  · intro id known
    exact (settle.operands.evaluate known).resolved interpreter.state
  · intro id known
    exact (settle.execute known).resolved interpreter.state
  · intro statements known
    exact (settle.sequence known).resolved interpreter.state
  · intro function arguments known
    exact (settle.callUser wellFormed known arguments .empty).resolved interpreter.state

/-- A function that is declared, called with a conversion of its parameter, and
given the body in which it is called; and another one without a body. -/
def Builder.recursing : Builder :=
  let builder := (initial.declareFunction "f" [("n", .int)] .int).2
  let builder := (builder.declareFunction "g" [] .none).2
  let builder := (builder.reference "n").2
  let builder := (builder.cast ⟨0⟩ .int).2
  let builder := ((builder.call? ⟨0⟩ [⟨1⟩]).map Prod.snd).getD builder
  let builder := (builder.declareDefault "d" (.dict .string .int)).2
  let builder := (builder.giveBack (some ⟨2⟩)).2
  (builder.defineBody? ⟨0⟩ [⟨0⟩, ⟨1⟩]).getD builder

theorem Builder.Built.runs_resolved_recursing :
    ∃ interpreter : Interpreter, Builder.recursing.Built ∧
      interpreter.setup.program = Builder.recursing.program ∧
      Builder.recursing.program.HasFunction ⟨0⟩ ∧
      ∀ arguments, (interpreter.call 9 ⟨0⟩ arguments).Resolved .standard := by
  have declared := (Built.start .initial).step (.declareFunction "f" [("n", .int)] .int)
  have converting := ((declared.step (.declareFunction "g" [] .none)).step
    (.reference "n")).step (.cast ⟨0⟩ .int (by decide))
  have calling := converting.step (.call ⟨0⟩ [⟨1⟩] (by decide) rfl)
  have giving := (calling.step (.declareDefault "d" (.dict .string .int))).step
    (.giveBack (some ⟨2⟩) (by decide))
  have built : recursing.Built := giving.step (.defineBody ⟨0⟩ [⟨0⟩, ⟨1⟩] rfl)
  obtain ⟨_, _, _, _, calls, _⟩ := runs_resolved built
    (show (Interpreter.create recursing.program .standard .silent (some 3)).setup.program = _
      from rfl) 9
  exact ⟨_, built, rfl, by decide, fun arguments => calls ⟨0⟩ arguments (by decide)⟩

end ScriptEngine
