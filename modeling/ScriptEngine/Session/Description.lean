import ScriptEngine.Heap.Census
import ScriptEngine.Heap.Dict
import ScriptEngine.Heap.View

/-!
# Describing values

A description says how to allocate a value, parts before wholes and from
left to right; it can name objects that are held already. A snapshot is what
there is to see of an object at one moment.
-/

namespace ScriptEngine

inductive Description where
  | scalar (value : Scalar)
  | vector (element : StaticType) (elements : List Description)
  | dict (key value : StaticType) (entries : List (Description × Description))
  | default (type : StaticType)
  /-- Another handle on the object held under a name. -/
  | held (name : String)

/-- Objects held by name. -/
abbrev Holdings := List (String × Address)

namespace Holdings

def get? (holdings : Holdings) (name : String) : Option Address :=
  List.lookup name holdings

def erase (holdings : Holdings) (name : String) : Holdings :=
  holdings.filter (·.1 != name)

end Holdings

namespace Description

mutual

/-- The names a description refers to. -/
def names : Description → List String
  | .scalar _ => []
  | .vector _ elements => namesAll elements
  | .dict _ _ entries => namesEntries entries
  | .default _ => []
  | .held name => [name]

def namesAll : List Description → List String
  | [] => []
  | description :: others => description.names ++ namesAll others

def namesEntries : List (Description × Description) → List String
  | [] => []
  | (key, value) :: others => key.names ++ value.names ++ namesEntries others

end

/-- Whether every name a description refers to is held. -/
def isKnown (description : Description) (holdings : Holdings) : Bool :=
  description.names.all fun name => (holdings.get? name).isSome

mutual

/-- Allocate a described value. A name that is not held reads as `none`. -/
def allocate (holdings : Holdings) (heap : Heap) : Description → Address × Heap
  | .scalar value => heap.newScalar value
  | .vector element elements =>
      let (addresses, heap) := allocateAll holdings heap elements
      heap.newVector element addresses
  | .dict key value entries =>
      let (pairs, heap) := allocateEntries holdings heap entries
      heap.newDict key value pairs
  | .default type => heap.newDefault type
  | .held name =>
      match holdings.get? name with
      | some address => (address, heap.retain address)
      | none => heap.newScalar .none

def allocateAll (holdings : Holdings) (heap : Heap) :
    List Description → List Address × Heap
  | [] => ([], heap)
  | description :: others =>
      let (address, heap) := allocate holdings heap description
      let (addresses, heap) := allocateAll holdings heap others
      (address :: addresses, heap)

def allocateEntries (holdings : Holdings) (heap : Heap) :
    List (Description × Description) → List (Address × Address) × Heap
  | [] => ([], heap)
  | (key, value) :: others =>
      let (keyAddress, heap) := allocate holdings heap key
      let (valueAddress, heap) := allocate holdings heap value
      let (pairs, heap) := allocateEntries holdings heap others
      ((keyAddress, valueAddress) :: pairs, heap)

end

end Description

structure Snapshot where
  tree : Tree
  slots : Nat
  pinned : Bool
  /-- The number of the object within its zone. -/
  serial : Nat

def Heap.snapshot (heap : Heap) (address : Address) : Snapshot where
  tree := heap.tree address
  slots := heap.slotCount address
  pinned := heap.isPinned address
  serial := heap.serial address

end ScriptEngine
