/-!
# Source spans

A span is a half-open interval of byte offsets.
-/

namespace ScriptEngine

structure Span where
  start : Nat
  stop : Nat
deriving DecidableEq, Repr, Inhabited

namespace Span

/-- The span of code that has no place in a source text. -/
def empty : Span := ⟨0, 0⟩

/-- Zero for a reversed span. -/
def length (span : Span) : Nat :=
  span.stop - span.start

def isEmpty (span : Span) : Bool :=
  decide (span.stop ≤ span.start)

def contains (span : Span) (offset : Nat) : Bool :=
  decide (span.start ≤ offset ∧ offset < span.stop)

/-- The least span that covers both. -/
def merge (left right : Span) : Span :=
  ⟨min left.start right.start, max left.stop right.stop⟩

def text (span : Span) : String :=
  toString span.start ++ ".." ++ toString span.stop

/-- The span covering every span of the list, empty for an empty list. -/
def cover : List Span → Span
  | [] => empty
  | first :: others => others.foldl merge first

theorem isEmpty_iff_length_eq_zero (span : Span) :
    span.isEmpty = true ↔ span.length = 0 := by
  simp [isEmpty, length, Nat.sub_eq_zero_iff_le]

end Span

/-- A node of the program together with the source it stands for. -/
structure Located (α : Type) where
  node : α
  span : Span
deriving DecidableEq, Repr

end ScriptEngine
