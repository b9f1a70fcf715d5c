/-!
# Active loops

One frame for each loop that is running, over all calls. A loop belongs to
the current call if it started at or above the call's base.
-/

namespace ScriptEngine

structure LoopFrame where
  /-- The number of scope frames outside the loop's iterations. -/
  scopeDepth : Nat
  /-- Raised by `break`. -/
  broken : Bool := false
deriving DecidableEq, Repr, Inhabited

structure Loops where
  frames : Array LoopFrame := #[]
deriving DecidableEq, Repr, Inhabited

namespace Loops

def depth (loops : Loops) : Nat :=
  loops.frames.size

def push (loops : Loops) (frame : LoopFrame) : Loops :=
  ⟨loops.frames.push frame⟩

def pop (loops : Loops) : Loops :=
  ⟨loops.frames.pop⟩

/-- The innermost loop, if it lies above the base. -/
def innermost? (loops : Loops) (base : Nat) : Option LoopFrame :=
  if base < loops.depth then loops.frames.back? else none

/-- The innermost loop marked as broken; nothing if there is none above the
base. -/
def break? (loops : Loops) (base : Nat) : Option Loops :=
  if base < loops.depth then
    some ⟨loops.frames.modify (loops.depth - 1) ({ · with broken := true })⟩
  else none

end Loops

end ScriptEngine
