import ScriptEngine.Failure.Cause
import ScriptEngine.Heap.Dict
import ScriptEngine.Heap.View
import ScriptEngine.Storage.Scopes

/-!
# Places

A place is a slot that can be assigned: a binding, a vector element, or the
value of a dict entry. A place inside a container owns a handle on it.
Reading a key that a dict does not have fails; writing creates the entry.
-/

namespace ScriptEngine

inductive Place where
  | binding (depth : Nat) (name : Name)
  | element (vector : Address) (position : Nat)
  | entry (dict : Address) (position : Nat)
deriving DecidableEq, Repr

inductive Access where
  | read
  | write
deriving DecidableEq, Repr

/-- The position an index value names in a vector of the given length. -/
def vectorPosition (key : Payload) (length : Nat) : Except Cause Nat :=
  let check := fun (number : Int) =>
    if 0 ≤ number ∧ number < length then .ok number.toNat
    else .error (.indexOutOfRange (toString number) length)
  match key with
  | .scalar (.int number) => check number.toInt
  | .scalar (.usize number) => check number.toNat
  | other => .error (.invalidIndexType other.kind.name)

/-- Where a key leads in a container. -/
inductive Spot where
  | element (position : Nat)
  | entry (position : Nat)
  /-- A dict without the key. -/
  | absent
deriving DecidableEq, Repr

namespace Heap

def spot (heap : Heap) (container key : Address) : Except Cause Spot :=
  match heap.payload? container with
  | some (.vector elements) =>
      match heap.payload? key with
      | some payload => (vectorPosition payload elements.length).map Spot.element
      | none => .error (.invalidIndexType (heap.kind key).name)
  | some (.dict entries) =>
      match heap.findEntry? entries key with
      | some position => .ok (.entry position)
      | none => .ok .absent
  | _ => .error (.notIndexable (heap.kind container).name)

/-- A new entry at the end of a dict, with the default of the dict's value
type under the given key. The key's handle passes to the entry. -/
def createEntry (heap : Heap) (dict key : Address) (entries : List (Address × Address)) :
    Heap :=
  let (value, heap) := heap.newDefault ((heap.type dict).parameter 1)
  ((heap.enterSlot key).enterSlot value).setPayload dict
    (.dict (entries ++ [(key, value)]))

/-- The place of `container[key]`. The key's handle is taken over, and the
place owns a new handle on the container. -/
def locate (heap : Heap) (container key : Address) (access : Access) :
    Except Cause Place × Heap :=
  match heap.spot container key with
  | .error cause => (.error cause, heap.release key)
  | .ok (.element position) =>
      (.ok (.element container position), (heap.release key).retain container)
  | .ok (.entry position) =>
      (.ok (.entry container position), (heap.release key).retain container)
  | .ok .absent =>
      match access with
      | .read => (.error (.keyNotFound (heap.render true key)), heap.release key)
      | .write =>
          let entries := heap.entries container
          (.ok (.entry container entries.length),
            (heap.createEntry container key entries).retain container)

/-- The object at `container[key]`, which must be there. -/
def valueAt (heap : Heap) (container key : Address) : Except Cause Address :=
  match heap.spot container key with
  | .error cause => .error cause
  | .ok (.element position) =>
      match heap.element? container position with
      | some value => .ok value
      | none => .error (.indexOutOfRange (toString position) 0)
  | .ok (.entry position) =>
      match heap.entry? container position with
      | some entry => .ok entry.2
      | none => .error .invalidAssignmentTarget
  | .ok .absent => .error (.keyNotFound (heap.render true key))

/-- A new handle on `container[key]`. The key's handle is taken over. -/
def readElement (heap : Heap) (container key : Address) :
    Except Cause Address × Heap :=
  match heap.valueAt container key with
  | .error cause => (.error cause, heap.release key)
  | .ok value => (.ok value, (heap.retain value).release key)

end Heap

namespace Place

/-- The handles a place owns. -/
def handles : Place → List Address
  | .binding _ _ => []
  | .element vector _ => [vector]
  | .entry dict _ => [dict]

/-- The object in a place. -/
def load (place : Place) (scopes : Scopes) (heap : Heap) : Except Cause Address :=
  match place with
  | .binding depth name =>
      match scopes.get? depth name with
      | some value => .ok value
      | none => .error .invalidAssignmentTarget
  | .element vector position =>
      match heap.payload? vector with
      | some (.vector elements) =>
          match elements[position]? with
          | some value => .ok value
          | none => .error (.indexOutOfRange (toString position) elements.length)
      | _ => .error (.notIndexable (heap.kind vector).name)
  | .entry dict position =>
      match heap.payload? dict with
      | some (.dict entries) =>
          match entries[position]? with
          | some pair => .ok pair.2
          | none => .error .invalidAssignmentTarget
      | _ => .error (.notIndexable (heap.kind dict).name)

/-- Let the slot of a place point at another object. -/
def point (place : Place) (scopes : Scopes) (heap : Heap) (value : Address) :
    Scopes × Heap :=
  match place with
  | .binding depth name => (scopes.modifyFrame depth (·.put name value), heap)
  | .element vector position =>
      match heap.payload? vector with
      | some (.vector elements) =>
          (scopes, heap.setPayload vector (.vector (elements.set position value)))
      | _ => (scopes, heap)
  | .entry dict position =>
      match heap.payload? dict with
      | some (.dict entries) =>
          (scopes, heap.setPayload dict (.dict (Heap.setEntry entries position value)))
      | _ => (scopes, heap)

/-- Store an object in a place that can be loaded. The handle of the object
passes to the slot, and that of the earlier occupant back to the caller. -/
def store (place : Place) (scopes : Scopes) (heap : Heap) (value : Address) :
    Except Cause Address × Scopes × Heap :=
  match place.load scopes heap with
  | .error cause => (.error cause, scopes, heap)
  | .ok previous =>
      let (scopes, heap) := place.point scopes (heap.enterSlot value) value
      (.ok previous, scopes, heap.leaveSlot previous)

end Place

end ScriptEngine
