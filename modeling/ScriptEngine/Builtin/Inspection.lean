import ScriptEngine.Builtin.Basic
import ScriptEngine.Heap.Census
import ScriptEngine.Heap.Dict

/-!
# Inspection functions

Built-in functions through which a script can look at its values: their
types, sizes, identity, slots, and the number of living objects.
-/

namespace ScriptEngine.Builtin

/-- A function of one argument; without one it fails. -/
def unaryFunction (name : String) (result : StaticType)
    (action : Address → Heap → Output → BuiltinResult) : Builtin where
  name := name
  result := result
  parameters := [.exact .args]
  action := fun arguments heap output =>
    match arguments with
    | value :: _ => action value heap output
    | [] => ⟨.error (.of (.arityMismatch name 1 0)), heap, output⟩

/-- A function of two arguments; with fewer it fails. -/
def binaryFunction (name : String) (result : StaticType)
    (action : Address → Address → Heap → Output → BuiltinResult) : Builtin where
  name := name
  result := result
  parameters := [.exact .args, .exact .args]
  action := fun arguments heap output =>
    match arguments with
    | left :: right :: _ => action left right heap output
    | _ => ⟨.error (.of (.arityMismatch name 2 arguments.length)), heap, output⟩

/-- The number of elements or entries. -/
def len : Builtin :=
  unaryFunction "len" .usize fun value heap output =>
    match (heap.payload? value).bind Payload.length? with
    | some length => computed (heap.newScalar (.usize (UInt64.ofNat length))) output
    | none =>
        ⟨.error (.of (.builtinFailed "len" ("no length for " ++ (heap.kind value).name))),
          heap, output⟩

def typeOf : Builtin :=
  unaryFunction "typeof" .string fun value heap output =>
    computed (heap.newScalar (.string (heap.type value).text)) output

def kindOf : Builtin :=
  unaryFunction "kindof" .string fun value heap output =>
    computed (heap.newScalar (.string (heap.kind value).name)) output

def quote : Builtin :=
  unaryFunction "quote" .string fun value heap output =>
    computed (heap.newScalar (.string (heap.render true value))) output

/-- The number of living objects before the result is one of them. -/
def live : Builtin where
  name := "live"
  result := .int
  parameters := []
  action := fun _ heap output =>
    computed (heap.newScalar (.int (Int64.ofNat heap.liveCount))) output

def slots : Builtin :=
  unaryFunction "slots" .int fun value heap output =>
    computed (heap.newScalar (.int (Int64.ofNat (heap.slotCount value)))) output

def same : Builtin :=
  binaryFunction "same" .bool fun left right heap output =>
    computed (heap.newScalar (.bool (left == right))) output

def equals : Builtin :=
  binaryFunction "equals" .bool fun left right heap output =>
    computed (heap.newScalar (.bool (heap.equals left right))) output

/-- The argument itself. -/
def pass : Builtin :=
  unaryFunction "pass" .args fun value heap output =>
    computed (value, heap.retain value) output

/-- The element of a vector at an integer position, and `none` where there
is no such element. -/
def elementAt : Builtin :=
  binaryFunction "at" .args fun container position heap output =>
    let found :=
      match heap.scalar? position with
      | some (.int number) =>
          if 0 ≤ number.toInt then heap.element? container number.toInt.toNat else none
      | _ => none
    match found with
    | some element => computed (element, heap.retain element) output
    | none => computed (heap.newScalar .none) output

/-- The number of arguments. -/
def count : Builtin where
  name := "count"
  result := .int
  parameters := [.exact .string, .variadic]
  action := fun arguments heap output =>
    computed (heap.newScalar (.int (Int64.ofNat arguments.length))) output

/-- Fails whatever the arguments. -/
def refuse : Builtin where
  name := "refuse"
  result := .none
  parameters := [.variadic]
  action := fun arguments heap output =>
    ⟨.error (.of (.builtinFailed "refuse"
        ("cannot take " ++ toString arguments.length ++ " arguments"))),
      heap, output⟩

def inspection : List Builtin :=
  [len, typeOf, kindOf, quote, live, slots, same, equals, pass, elementAt, count, refuse]

end ScriptEngine.Builtin

namespace ScriptEngine.BuiltinTable

/-- The standard functions and those for inspection. -/
def withInspection : BuiltinTable :=
  Builtin.inspection.foldl register standard

end ScriptEngine.BuiltinTable
