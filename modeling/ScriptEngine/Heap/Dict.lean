import ScriptEngine.Heap.Equality
import ScriptEngine.Heap.Release

/-!
# Dicts

A dict holds its entries in order of insertion and finds them by structural
equality of keys.
-/

namespace ScriptEngine.Heap

/-- The position of the first entry whose key equals the given one. -/
def findEntry? (heap : Heap) (entries : List (Address × Address)) (key : Address) :
    Option Nat :=
  entries.findIdx? fun entry => heap.equals entry.1 key

/-- The value of an entry replaced. -/
def setEntry (entries : List (Address × Address)) (position : Nat) (value : Address) :
    List (Address × Address) :=
  entries.modify position fun entry => (entry.1, value)

/-- Take a pair into the entries of a dict being built. A key that is there
already keeps its object and position and takes the later value. -/
def insertPair (heap : Heap) (entries : List (Address × Address)) (key value : Address) :
    List (Address × Address) × Heap :=
  match heap.findEntry? entries key with
  | some position =>
      let heap := heap.enterSlot value
      let heap :=
        match entries[position]? with
        | some entry => heap.dropSlots [entry.2]
        | none => heap
      (setEntry entries position value, heap.release key)
  | none => (entries ++ [(key, value)], (heap.enterSlot key).enterSlot value)

def insertPairs (heap : Heap) (entries : List (Address × Address)) :
    List (Address × Address) → List (Address × Address) × Heap
  | [] => (entries, heap)
  | (key, value) :: others =>
      let (entries, heap) := heap.insertPair entries key value
      heap.insertPairs entries others

/-- A dict of the given pairs, whose handles it takes over. -/
def newDict (heap : Heap) (key value : StaticType) (pairs : List (Address × Address)) :
    Address × Heap :=
  let (entries, heap) := heap.insertPairs [] pairs
  heap.allocate (.dict key value) (.dict entries)

/-- The element at a position of a vector. -/
def element? (heap : Heap) (vector : Address) (position : Nat) : Option Address :=
  match heap.payload? vector with
  | some (.vector elements) => elements[position]?
  | _ => none

/-- The entries of a dict; no entries for any other object. -/
def entries (heap : Heap) (dict : Address) : List (Address × Address) :=
  match heap.payload? dict with
  | some (.dict entries) => entries
  | _ => []

def entry? (heap : Heap) (dict : Address) (position : Nat) : Option (Address × Address) :=
  (heap.entries dict)[position]?

/-- The value stored under a key of a dict. -/
def valueOf? (heap : Heap) (dict key : Address) : Option Address :=
  (heap.findEntry? (heap.entries dict) key).bind fun position =>
    (heap.entry? dict position).map Prod.snd

end ScriptEngine.Heap
