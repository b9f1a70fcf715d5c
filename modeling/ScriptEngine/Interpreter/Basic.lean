import ScriptEngine.Interpreter.Run

/-!
# Interpreters

An interpreter is a program with the state of its runs. Each operation gives
an outcome with the state it leaves, after failures too.
-/

namespace ScriptEngine

structure Interpreter where
  setup : Setup
  state : State

namespace Interpreter

/-- The call limit of an interpreter that is not given another. -/
def defaultCallLimit : Nat := 10000

/-- An interpreter that has not run anything. -/
def create (program : Program) (builtins : BuiltinTable) (sink : Sink)
    (limit : Option Nat) : Interpreter where
  setup := { program := program, builtins := builtins }
  state := { calls := { limit := limit }, output := { sink := sink } }

variable (interpreter : Interpreter) (fuel : Nat)

def evaluate (id : ExpressionId) : Outcome Address :=
  (Nested.withFuel interpreter.setup fuel).evaluate id interpreter.state

def execute (id : StatementId) : Outcome Unit :=
  (Nested.withFuel interpreter.setup fuel).execute id interpreter.state

/-- Run a statement list in the root scope. -/
def run (statements : List StatementId) : Outcome Unit :=
  Evaluation.sequence (Nested.withFuel interpreter.setup fuel) statements interpreter.state

/-- Call a function from outside the program, taking over the arguments. -/
def call (function : FunctionId) (arguments : List Address) : Outcome Address :=
  let nested := Nested.withFuel interpreter.setup fuel
  Evaluation.callUser interpreter.setup (Evaluation.runCall interpreter.setup nested)
    function arguments .empty interpreter.state

/-- The object bound to a name visible to the current call. -/
def lookup? (name : String) : Option Address :=
  (interpreter.setup.program.names.get? name).bind interpreter.state.lookup?

end Interpreter

end ScriptEngine
