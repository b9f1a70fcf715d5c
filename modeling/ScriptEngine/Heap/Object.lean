import ScriptEngine.Value.Scalar

/-!
# Objects

An object is a typed payload with two counts: how many slots hold it, and
how many handles on it exist. A slot is a place that stores an object: a
binding, a vector element, or a dict key or value. Every slot owns a handle.
-/

namespace ScriptEngine

/-- The place of an object in the heap; it is never used again for another
object. -/
abbrev Address := Nat

inductive Payload where
  | scalar (value : Scalar)
  | vector (elements : List Address)
  /-- Entries in order of insertion, each a key with its value. -/
  | dict (entries : List (Address × Address))
deriving DecidableEq, Repr

namespace Payload

def kind : Payload → Kind
  | .scalar value => value.kind
  | .vector _ => .vector
  | .dict _ => .dict

/-- The objects held by the slots of a payload, in order. -/
def children : Payload → List Address
  | .scalar _ => []
  | .vector elements => elements
  | .dict entries => entries.flatMap fun entry => [entry.1, entry.2]

/-- The number of elements or entries. -/
def length? : Payload → Option Nat
  | .scalar _ => none
  | .vector elements => some elements.length
  | .dict entries => some entries.length

end Payload

structure Object where
  type : StaticType
  payload : Payload
  /-- The zone the object was allocated in, and its number there. -/
  zone : Nat
  serial : Nat
  slots : Nat := 0
  handles : Nat := 1
  pinned : Bool := false
deriving Repr

end ScriptEngine
