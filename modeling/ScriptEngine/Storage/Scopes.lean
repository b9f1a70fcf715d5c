import ScriptEngine.Heap.Release
import ScriptEngine.Source.Interner

/-!
# Scopes

A stack of scope frames over a root frame that is never removed. A name is
looked up from the innermost frame down to a floor, and then in the root
frame, so that a call sees its own frames and the globals and nothing of its
caller. Every binding is a slot.
-/

namespace ScriptEngine

structure ScopeFrame where
  bindings : List (Name × Address) := []
  /-- Raised by `continue`: the rest of this frame's statements is skipped. -/
  skipsRest : Bool := false
deriving DecidableEq, Repr, Inhabited

namespace ScopeFrame

def get? (frame : ScopeFrame) (name : Name) : Option Address :=
  frame.bindings.lookup name

def binds (frame : ScopeFrame) (name : Name) : Bool :=
  (frame.get? name).isSome

def size (frame : ScopeFrame) : Nat :=
  frame.bindings.length

/-- The objects held by the bindings. -/
def values (frame : ScopeFrame) : List Address :=
  frame.bindings.map Prod.snd

/-- Bind a name to another object, in place if it is bound already. -/
def put (frame : ScopeFrame) (name : Name) (value : Address) : ScopeFrame :=
  if frame.binds name then
    { frame with
      bindings := frame.bindings.map fun binding =>
        if binding.1 == name then (name, value) else binding }
  else
    { frame with bindings := (name, value) :: frame.bindings }

/-- Bind a name to another object, destroying an earlier binding of it. -/
def declare (frame : ScopeFrame) (heap : Heap) (name : Name) (value : Address) :
    ScopeFrame × Heap :=
  (frame.put name value, (heap.enterSlot value).dropSlots (frame.get? name).toList)

end ScopeFrame

/-- The root frame has depth 0, and the frames of `nested` follow it. -/
structure Scopes where
  root : ScopeFrame := {}
  nested : Array ScopeFrame := #[]
deriving DecidableEq, Repr, Inhabited

namespace Scopes

def initial : Scopes := {}

/-- The number of frames. -/
def depth (scopes : Scopes) : Nat :=
  scopes.nested.size + 1

def frame? (scopes : Scopes) : Nat → Option ScopeFrame
  | 0 => some scopes.root
  | position + 1 => scopes.nested[position]?

def innermost (scopes : Scopes) : ScopeFrame :=
  match scopes.nested.back? with
  | some frame => frame
  | none => scopes.root

def modifyFrame (scopes : Scopes) (position : Nat) (change : ScopeFrame → ScopeFrame) :
    Scopes :=
  match position with
  | 0 => { scopes with root := change scopes.root }
  | position + 1 => { scopes with nested := scopes.nested.modify position change }

def get? (scopes : Scopes) (position : Nat) (name : Name) : Option Address :=
  (scopes.frame? position).bind (·.get? name)

def binds (scopes : Scopes) (position : Nat) (name : Name) : Bool :=
  (scopes.get? position name).isSome

/-- The innermost frame that binds the name, among the first `count` frames
and not below the floor. -/
def search (scopes : Scopes) (name : Name) (floor : Nat) : Nat → Option Nat
  | 0 => none
  | count + 1 =>
      if count < floor then none
      else if scopes.binds count name then some count
      else scopes.search name floor count

def resolve? (scopes : Scopes) (name : Name) (floor : Nat) : Option Nat :=
  match scopes.search name floor scopes.depth with
  | some position => some position
  | none => if scopes.binds 0 name then some 0 else none

def lookup? (scopes : Scopes) (name : Name) (floor : Nat) : Option Address :=
  (scopes.resolve? name floor).bind fun position => scopes.get? position name

def push (scopes : Scopes) : Scopes :=
  { scopes with nested := scopes.nested.push {} }

/-- Remove the innermost frame and destroy its bindings; the root stays. -/
def pop (scopes : Scopes) (heap : Heap) : Scopes × Heap :=
  match scopes.nested.back? with
  | some frame =>
      ({ scopes with nested := scopes.nested.pop }, heap.dropSlots frame.values)
  | none => (scopes, heap)

def popMany (scopes : Scopes) (heap : Heap) : Nat → Scopes × Heap
  | 0 => (scopes, heap)
  | count + 1 =>
      let (scopes, heap) := scopes.pop heap
      scopes.popMany heap count

/-- Remove frames until at most `depth` remain. -/
def truncate (scopes : Scopes) (heap : Heap) (depth : Nat) : Scopes × Heap :=
  scopes.popMany heap (scopes.depth - depth)

/-- Bind a name in the innermost frame, destroying an earlier binding of the
same name there. -/
def declare (scopes : Scopes) (heap : Heap) (name : Name) (value : Address) :
    Scopes × Heap :=
  let position := scopes.nested.size
  let previous := scopes.get? position name
  (scopes.modifyFrame position (·.put name value),
    (heap.enterSlot value).dropSlots previous.toList)

/-- Let every frame from the given depth upward skip its remaining
statements. -/
def skipFrom (scopes : Scopes) (depth : Nat) : Scopes :=
  (List.range' depth (scopes.depth - depth)).foldl
    (fun scopes position => scopes.modifyFrame position ({ · with skipsRest := true }))
    scopes

end Scopes

end ScriptEngine
