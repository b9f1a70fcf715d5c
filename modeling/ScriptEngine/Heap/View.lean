import ScriptEngine.Heap.Basic
import ScriptEngine.Value.Tree

/-!
# Reading and building trees

The tree of an object follows its slots to a bounded depth. An object graph
without cycles is never deeper than the heap is large, so the bound cuts off
nothing there. Building a tree allocates one object for each position, parts
before wholes.
-/

namespace ScriptEngine.Heap

/-- The tree of an object down to the given depth. -/
def treeWithin (heap : Heap) : Nat → Address → Tree
  | 0, _ => default
  | depth + 1, address =>
      match heap.get? address with
      | none => default
      | some object =>
          match object.payload with
          | .scalar value => .scalar object.type value
          | .vector elements =>
              .vector object.type (elements.map (heap.treeWithin depth))
          | .dict entries =>
              .dict object.type (entries.map fun entry =>
                (heap.treeWithin depth entry.1, heap.treeWithin depth entry.2))

def tree (heap : Heap) (address : Address) : Tree :=
  heap.treeWithin (heap.cells.size + 1) address

def render (heap : Heap) (nested : Bool) (address : Address) : String :=
  (heap.tree address).render nested

/-- How an object is shown with its number and type. -/
def outline (heap : Heap) (address : Address) : String :=
  "Value#" ++ toString (heap.serial address) ++ "(" ++ (heap.type address).text ++ ": " ++
    heap.render true address ++ ")"

mutual

def build (heap : Heap) : Tree → Address × Heap
  | .scalar type value => heap.allocate type (.scalar value)
  | .vector type elements =>
      let (addresses, heap) := buildAll heap elements
      (heap.enterSlots addresses).allocate type (.vector addresses)
  | .dict type entries =>
      let (addresses, heap) := buildEntries heap entries
      (heap.enterSlots (Payload.dict addresses).children).allocate type (.dict addresses)

def buildAll (heap : Heap) : List Tree → List Address × Heap
  | [] => ([], heap)
  | tree :: others =>
      let (address, heap) := build heap tree
      let (addresses, heap) := buildAll heap others
      (address :: addresses, heap)

def buildEntries (heap : Heap) : List (Tree × Tree) → List (Address × Address) × Heap
  | [] => ([], heap)
  | (key, value) :: others =>
      let (keyAddress, heap) := build heap key
      let (valueAddress, heap) := build heap value
      let (addresses, heap) := buildEntries heap others
      ((keyAddress, valueAddress) :: addresses, heap)

end

/-- A copy, which shares no object with the object copied. -/
def copy (heap : Heap) (address : Address) : Address × Heap :=
  heap.build (heap.tree address)

end ScriptEngine.Heap
