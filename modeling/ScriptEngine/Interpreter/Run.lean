import ScriptEngine.Interpreter.Assignment
import ScriptEngine.Interpreter.Call

/-!
# Runs

The evaluators of all kinds of nodes tied together. Fuel bounds how deeply
nodes nest and how often each loop iterates, so that every run ends with a
value or a failure, or by running out of fuel.
-/

namespace ScriptEngine

namespace Evaluation

variable (setup : Setup) (operands : Operands) (nested : Nested)

/-- Evaluate an expression to a handle that the caller owns. Failures of an
operand keep the blame they have; those of the operation itself fall on the
expression. What a call of a user function does is given. -/
def expression (invoke : FunctionId → List Address → Span → Evaluation Address)
    (id : ExpressionId) (node : Expression) (span : Span) : Evaluation Address :=
  match node with
  | .literal value => literal setup.program.names id value
  | .reference name => located span (variableCopy setup name)
  | .unary operator operand => do
      let address ← operands.evaluate operand
      located span (applyUnary operator address)
  | .arithmetic first rest =>
      located span do
        let left ← operands.evaluate first
        arithmeticChain operands left rest
  | .comparison first rest =>
      located span do
        let left ← operands.evaluate first
        comparisonChain operands left rest
  | .cast source => do
      let target ← recordedType setup id
      let address ← operands.evaluate source
      located span (applyCast address target)
  | .vector elements => located span (vector setup operands id elements)
  | .dict entries => located span (dict setup operands id entries)
  | .range start stop => range operands start stop
  | .index base indices => do
      let element ← shareIndexed setup operands base indices
      holding [element] (copy element)
  | .call callee arguments => located span (call setup operands invoke callee arguments span)
  | .assign target value => located span (assign operands target value)

/-- Evaluate an expression without a copy where it names stored data. -/
def sharedExpression (id : ExpressionId) (node : Expression) (span : Span) :
    Evaluation Address :=
  located span
    (match node with
      | .reference name => shareVariable setup name
      | .index base indices => shareIndexed setup operands base indices
      | _ => operands.evaluate id)

/-- The place an expression names. -/
def targetExpression (node : Expression) (span : Span) : Evaluation Place :=
  match node with
  | .reference name => located span (bindingPlace setup name)
  | .index base indices => indexedPlace setup operands base indices
  | _ => located span (fail .invalidAssignmentTarget)

/-- Run a statement. A failure of a branch's condition keeps its blame; any
other failure without blame falls on the statement. -/
def statement (id : StatementId) (node : Statement) (span : Span) : Evaluation Unit :=
  match node with
  | .expression value =>
      located span do
        let address ← nested.evaluate value
        release [address]
  | .declare name value => located span (declareVariable setup nested.toOperands id name value)
  | .block body => located span (block nested body)
  | .branch test body otherwise => do
      let holds ← condition setup nested.toOperands test
      located span
        (if holds then block nested body
          else
            match otherwise with
            | some statement => nested.execute statement
            | none => pure ())
  | .forEach name iterable body => located span (forEach setup nested name iterable body)
  | .whileLoop test body =>
      located span (inLoop (whileFrom setup nested test body nested.iterations))
  | .doWhile body test =>
      located span (inLoop (doWhileFrom setup nested body test nested.iterations))
  | .forever body => located span (inLoop (foreverFrom nested body nested.iterations))
  | .breakLoop => located span breakLoop
  | .continueLoop => located span continueLoop
  | .giveBack value => located span (giveBack nested.toOperands value)

/-- Do something with an expression that has to exist. -/
def withExpression {α : Type} (id : ExpressionId)
    (action : Expression → Span → Evaluation α) : Evaluation α :=
  match setup.program.expression? id with
  | some located => action located.node located.span
  | none => stop .missingNode

def withStatement {α : Type} (id : StatementId)
    (action : Statement → Span → Evaluation α) : Evaluation α :=
  match setup.program.statement? id with
  | some located => action located.node located.span
  | none => stop .missingNode

end Evaluation

namespace Nested

open Evaluation

/-- The evaluator without fuel. -/
def exhausted : Nested where
  evaluate _ := stop .outOfFuel
  share _ := stop .outOfFuel
  target _ := stop .outOfFuel
  execute _ := stop .outOfFuel
  iterations := 0

/-- The evaluator of nodes, given the evaluator of the nodes inside them. -/
def layer (setup : Setup) (inner : Unit → Nested) (iterations : Nat) : Nested where
  evaluate id :=
    withExpression setup id fun node span =>
      expression setup (inner ()).toOperands (callUser setup (runCall setup (inner ()))) id node
        span
  share id :=
    withExpression setup id fun node span =>
      sharedExpression setup (inner ()).toOperands id node span
  target id :=
    withExpression setup id fun node span =>
      targetExpression setup (inner ()).toOperands node span
  execute id :=
    withStatement setup id fun node span => statement setup (inner ()) id node span
  iterations := iterations

/-- The evaluator that can nest nodes, and iterate each loop, as often as it
has fuel. -/
def withFuel (setup : Setup) : Nat → Nested
  | 0 => exhausted
  | fuel + 1 => layer setup (fun () => withFuel setup fuel) fuel

end Nested

end ScriptEngine
