import ScriptEngine.Heap.Object

/-!
# The heap

The heap maps addresses to the objects that are alive. Allocation happens in
the current zone, and each zone numbers its objects from zero. A slot count
that would fall below zero stays there and is remembered as an underflow.
-/

namespace ScriptEngine

structure Heap where
  cells : Array (Option Object) := #[]
  zone : Nat := 0
  /-- How many objects each zone has allocated. -/
  issued : Array Nat := #[0]
  /-- Whether a slot has left an object that no slot was counted for. -/
  underflowed : Bool := false
deriving Inhabited, Repr

namespace Heap

def empty : Heap := {}

def get? (heap : Heap) (address : Address) : Option Object :=
  heap.cells[address]?.join

/-- Change the object at an address, if there is one. -/
def modify (heap : Heap) (address : Address) (change : Object → Object) : Heap :=
  { heap with cells := heap.cells.modify address (Option.map change) }

/-- A new object on which the caller owns the only handle. The slots of the
payload must already have been counted. -/
def allocate (heap : Heap) (type : StaticType) (payload : Payload) : Address × Heap :=
  let serial := heap.issued.getD heap.zone 0
  (heap.cells.size,
    { heap with
      cells := heap.cells.push (some
        { type := type, payload := payload, zone := heap.zone, serial := serial })
      issued := heap.issued.modify heap.zone (· + 1) })

/-- Start a zone in which nothing has been allocated, and allocate there. -/
def openZone (heap : Heap) : Heap :=
  { heap with zone := heap.issued.size, issued := heap.issued.push 0 }

/-- One more handle. -/
def retain (heap : Heap) (address : Address) : Heap :=
  heap.modify address fun object => { object with handles := object.handles + 1 }

/-- A slot takes over a handle of the caller. -/
def enterSlot (heap : Heap) (address : Address) : Heap :=
  heap.modify address fun object => { object with slots := object.slots + 1 }

def enterSlots (heap : Heap) (addresses : List Address) : Heap :=
  addresses.foldl enterSlot heap

def slotCount (heap : Heap) (address : Address) : Nat :=
  match heap.get? address with
  | some object => object.slots
  | none => 0

/-- A slot gives its handle back to the caller. -/
def leaveSlot (heap : Heap) (address : Address) : Heap :=
  let heap := if heap.slotCount address = 0 then { heap with underflowed := true } else heap
  heap.modify address fun object => { object with slots := object.slots - 1 }

def leaveSlots (heap : Heap) (addresses : List Address) : Heap :=
  addresses.foldl leaveSlot heap

def setPinned (heap : Heap) (address : Address) (pinned : Bool) : Heap :=
  heap.modify address fun object => { object with pinned := pinned }

def setPayload (heap : Heap) (address : Address) (payload : Payload) : Heap :=
  heap.modify address fun object => { object with payload := payload }

def payload? (heap : Heap) (address : Address) : Option Payload :=
  (heap.get? address).map (·.payload)

/-- The scalar at an address, if the object there is one. -/
def scalar? (heap : Heap) (address : Address) : Option Scalar :=
  match heap.payload? address with
  | some (.scalar value) => some value
  | _ => none

def type (heap : Heap) (address : Address) : StaticType :=
  match heap.get? address with
  | some object => object.type
  | none => .none

def kind (heap : Heap) (address : Address) : Kind :=
  match heap.payload? address with
  | some payload => payload.kind
  | none => .none

def isPinned (heap : Heap) (address : Address) : Bool :=
  match heap.get? address with
  | some object => object.pinned
  | none => false

/-- The number of an object within its zone. -/
def serial (heap : Heap) (address : Address) : Nat :=
  match heap.get? address with
  | some object => object.serial
  | none => 0

def newScalar (heap : Heap) (value : Scalar) : Address × Heap :=
  heap.allocate value.type (.scalar value)

/-- A vector of the given elements, whose handles it takes over. -/
def newVector (heap : Heap) (element : StaticType) (elements : List Address) :
    Address × Heap :=
  (heap.enterSlots elements).allocate (.vector element) (.vector elements)

/-- The value that a variable of the given type starts with. -/
def newDefault (heap : Heap) (type : StaticType) : Address × Heap :=
  let payload :=
    match Scalar.default? type.kind with
    | some value => .scalar value
    | none => if type.kind = .dict then .dict [] else .vector []
  heap.allocate type.mutable payload

/-! ## Looking up and changing objects -/

theorem get?_modify (heap : Heap) (target address : Address) (change : Object → Object) :
    (heap.modify target change).get? address =
      if target = address then (heap.get? address).map change
      else heap.get? address := by
  simp only [get?, modify, Array.getElem?_modify]
  split
  · cases heap.cells[address]? with
    | none => rfl
    | some cell => cases cell <;> rfl
  · rfl

@[simp] theorem size_modify (heap : Heap) (address : Address) (change : Object → Object) :
    (heap.modify address change).cells.size = heap.cells.size := by
  simp [modify]

theorem get?_eq_none_of_size_le {heap : Heap} {address : Address}
    (beyond : heap.cells.size ≤ address) : heap.get? address = none := by
  simp [get?, Array.getElem?_eq_none beyond]

theorem lt_size_of_get?_eq_some {heap : Heap} {address : Address} {object : Object}
    (found : heap.get? address = some object) : address < heap.cells.size := by
  apply Nat.lt_of_not_le
  intro beyond
  simp [get?_eq_none_of_size_le beyond] at found

theorem get?_allocate_self (heap : Heap) (type : StaticType) (payload : Payload) :
    (heap.allocate type payload).2.get? (heap.allocate type payload).1 =
      some { type := type, payload := payload, zone := heap.zone,
             serial := heap.issued.getD heap.zone 0 } := by
  simp [allocate, get?]

theorem get?_allocate_of_lt {heap : Heap} {address : Address}
    (old : address < heap.cells.size) (type : StaticType) (payload : Payload) :
    (heap.allocate type payload).2.get? address = heap.get? address := by
  simp [allocate, get?, Array.getElem?_push, Nat.ne_of_lt old]

theorem scalar?_newScalar (heap : Heap) (value : Scalar) :
    (heap.newScalar value).2.scalar? (heap.newScalar value).1 = some value := by
  simp [scalar?, payload?, newScalar, get?_allocate_self]

end Heap

end ScriptEngine
