import ScriptEngine.Activation.Output
import ScriptEngine.Failure.Basic
import ScriptEngine.Heap.View
import ScriptEngine.Heap.Release
import ScriptEngine.Source.Outline

/-!
# Built-in functions

A built-in function reads its evaluated arguments and hands its result to
the caller. It can allocate and print, and sees nothing else of the run.
Calling one checks the number of arguments only.
-/

namespace ScriptEngine

inductive ParameterType where
  | exact (type : StaticType)
  /-- Any number of arguments of any type, if it is the last parameter. -/
  | variadic
deriving DecidableEq, Repr

namespace ParameterType

def isExact : ParameterType → Bool
  | .exact _ => true
  | .variadic => false

def text : ParameterType → String
  | .exact type => type.text
  | .variadic => "..."

def outline : ParameterType → String
  | .exact type => Outline.wrapped "Exact" type.outline
  | .variadic => "Args"

end ParameterType

/-- What a built-in function leaves behind. -/
structure BuiltinResult where
  value : Except Failure Address
  heap : Heap
  output : Output

structure Builtin where
  name : String
  result : StaticType
  parameters : List ParameterType
  action : List Address → Heap → Output → BuiltinResult

namespace Builtin

def isVariadic (builtin : Builtin) : Bool :=
  match builtin.parameters.getLast? with
  | some .variadic => true
  | _ => false

/-- The number of parameters that each take exactly one argument. -/
def fixedArity (builtin : Builtin) : Nat :=
  builtin.parameters.countP (·.isExact)

def accepts (builtin : Builtin) (count : Nat) : Bool :=
  if builtin.isVariadic then builtin.fixedArity ≤ count else count == builtin.fixedArity

def invoke (builtin : Builtin) (arguments : List Address) (heap : Heap)
    (output : Output) : BuiltinResult :=
  if builtin.accepts arguments.length then builtin.action arguments heap output
  else
    ⟨.error (.of (.arityMismatch builtin.name builtin.fixedArity arguments.length)),
      heap, output⟩

/-- The signature written out; what the function does is left open. -/
def outline (builtin : Builtin) : String :=
  "BuiltinFunction \x7b name: " ++ Quoted.string builtin.name ++
    ", result_type: " ++ builtin.result.outline ++
    ", params: " ++ Outline.list (builtin.parameters.map (·.outline)) ++ ", .. \x7d"

/-- A result computed without printing. -/
def computed (allocation : Address × Heap) (output : Output) : BuiltinResult :=
  ⟨.ok allocation.1, allocation.2, output⟩

/-- The text that printing the arguments writes. -/
def printed (heap : Heap) (arguments : List Address) : String :=
  String.join (arguments.map (heap.render false))

/-- Write the arguments followed by an ending; the result is the number of
characters written. -/
def write (ending : String) (arguments : List Address) (heap : Heap) (output : Output) :
    BuiltinResult :=
  let text := printed heap arguments ++ ending
  computed (heap.newScalar (.int (Int64.ofNat text.length))) (output.write text)

def print : Builtin where
  name := "print"
  result := .int
  parameters := [.variadic]
  action := write ""

def println : Builtin where
  name := "println"
  result := .int
  parameters := [.variadic]
  action := write "\n"

end Builtin

/-- Built-in functions by name, no two of one name. -/
structure BuiltinTable where
  functions : List Builtin := []

namespace BuiltinTable

def empty : BuiltinTable := {}

def get? (table : BuiltinTable) (name : String) : Option Builtin :=
  table.functions.find? (·.name == name)

def contains (table : BuiltinTable) (name : String) : Bool :=
  (table.get? name).isSome

def size (table : BuiltinTable) : Nat :=
  table.functions.length

/-- Add a function in place of an earlier one of its name. -/
def register (table : BuiltinTable) (builtin : Builtin) : BuiltinTable :=
  ⟨builtin :: table.functions.filter (·.name != builtin.name)⟩

/-- The functions every interpreter starts with. -/
def standard : BuiltinTable :=
  (empty.register Builtin.print).register Builtin.println

instance : Inhabited BuiltinTable := ⟨standard⟩

end BuiltinTable

end ScriptEngine
