import ScriptEngine.Heap.Release

/-!
# Census

Counts of the objects that the current zone allocated and that are alive.
-/

namespace ScriptEngine

structure Census where
  live : Nat
  pinned : Nat
  /-- Neither pinned nor held by a slot: a temporary. -/
  orphaned : Nat
deriving DecidableEq, Repr

namespace Heap

/-- How many living objects of the current zone have a property. -/
def count (heap : Heap) (property : Object → Bool) : Nat :=
  heap.cells.countP fun cell =>
    match cell with
    | some object => object.zone == heap.zone && property object
    | none => false

def liveCount (heap : Heap) : Nat :=
  heap.count fun _ => true

def census (heap : Heap) : Census where
  live := heap.liveCount
  pinned := heap.count (·.pinned)
  orphaned := heap.count fun object => !object.pinned && object.slots == 0

/-- Whether the current zone has a living object of the given number. -/
def isLive (heap : Heap) (serial : Nat) : Bool :=
  heap.count (·.serial == serial) != 0

/-- Reclaim the objects of the current zone that have no handle left, and
count them. -/
def sweep (heap : Heap) : Nat × Heap :=
  let lost := fun object : Object => object.zone == heap.zone && object.handles == 0
  (heap.count (·.handles == 0),
    { heap with cells := heap.cells.map (Option.filter (!lost ·)) })

end Heap

end ScriptEngine
