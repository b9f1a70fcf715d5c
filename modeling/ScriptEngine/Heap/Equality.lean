import ScriptEngine.Heap.Basic

/-!
# Structural equality

Two handles on one object are equal, whatever it holds; otherwise objects
are equal if their payloads agree position by position. Static types play no
part.
-/

namespace ScriptEngine.Heap

/-- Equality decided by looking no deeper than the given depth. -/
def equalWithin (heap : Heap) : Nat → Address → Address → Bool
  | 0, left, right => left == right
  | depth + 1, left, right =>
      left == right ||
        match heap.payload? left, heap.payload? right with
        | some (.scalar leftValue), some (.scalar rightValue) =>
            leftValue.equals rightValue
        | some (.vector leftElements), some (.vector rightElements) =>
            leftElements.length == rightElements.length &&
              (leftElements.zip rightElements).all fun pair =>
                heap.equalWithin depth pair.1 pair.2
        | some (.dict leftEntries), some (.dict rightEntries) =>
            leftEntries.length == rightEntries.length &&
              (leftEntries.zip rightEntries).all fun pair =>
                heap.equalWithin depth pair.1.1 pair.2.1 &&
                  heap.equalWithin depth pair.1.2 pair.2.2
        | _, _ => false

/-- A comparison that ends never meets the same pair of objects inside
itself, so the number of pairs bounds its depth. -/
def equals (heap : Heap) (left right : Address) : Bool :=
  heap.equalWithin ((heap.cells.size + 1) * (heap.cells.size + 1)) left right

end ScriptEngine.Heap
