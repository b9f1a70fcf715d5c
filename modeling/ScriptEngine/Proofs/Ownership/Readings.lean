import ScriptEngine.Proofs.Ownership.Lookups

/-!
# Readings of contents

What a key leads to in a container reads as what the contents of the key lead to in the
contents of the container, if there is no NaN in those of the key.  So containers with the
same contents are read alike, wherever they are.
-/

namespace ScriptEngine

/-- The contents of an element, or why there is none. -/
def Tree.under (container key : Tree) : Except Cause Tree :=
  match container with
  | .scalar _ value => .error (.notIndexable value.kind.name)
  | .vector _ elements =>
      match vectorPosition key.shape elements.length with
      | .error cause => .error cause
      | .ok position =>
          match elements[position]? with
          | some element => .ok element
          | none => .error (.indexOutOfRange (toString position) 0)
  | .dict _ entries =>
      match entries.find? (·.1.equals key) with
      | some entry => .ok entry.2
      | none => .error (.keyNotFound (key.render true))

namespace Heap

variable {heap : Heap} {slots handles : Multiset Address} {container key : Address}

theorem Grounded.tree_eq (grounded : heap.Grounded) (address : Address) :
    heap.tree address =
      match heap.payload? address with
      | none => default
      | some (.scalar value) => .scalar (heap.type address) value
      | some (.vector elements) => .vector (heap.type address) (elements.map heap.tree)
      | some (.dict entries) =>
          .dict (heap.type address)
            (entries.map fun entry => (heap.tree entry.1, heap.tree entry.2)) := by
  have deep : ∀ other, heap.treeWithin (heap.cells.size + 1) other = heap.tree other :=
    fun other => grounded.tree (Nat.lt_succ_self _)
  rw [← grounded.tree (show heap.cells.size < heap.cells.size + 1 + 1 by omega), treeWithin_succ]
  have same := funext deep
  cases heap.payload? address with
  | none => rfl
  | some payload => cases payload <;> simp only [deep, same]

variable (sound : heap.Sound slots handles)
include sound

/-- Elements found by contents read as elements of contents. -/
theorem Sound.tree_readAt (alive : heap.payload? container ≠ none) (tree : Tree) :
    (heap.readAt container tree).map heap.tree = (heap.tree container).under tree := by
  rw [sound.grounded.tree_eq container]
  unfold readAt spotAt
  obtain ⟨payload, found⟩ := Option.ne_none_iff_exists'.mp alive
  cases payload with
  | scalar value => simp [found, Tree.under, Except.map, kind, Payload.kind]
  | vector elements =>
      simp only [found, Tree.under, List.length_map]
      cases vectorPosition tree.shape elements.length with
      | error cause => rfl
      | ok position =>
          simp only [Except.map, element?, found, List.getElem?_map]
          cases elements[position]? <;> rfl
  | dict entries =>
      have position : heap.findTree? (entries.map Prod.fst) tree =
          entries.findIdx? fun entry => (heap.tree entry.1).equals tree := by
        simp only [findTree?, List.findIdx?_map]
        rfl
      have shown : (entries.find? fun entry => (heap.tree entry.1).equals tree) =
          (heap.findTree? (entries.map Prod.fst) tree).bind fun index => entries[index]? := by
        rw [position, List.find?_eq_bind_findIdx?_getElem?]
      simp only [found, Tree.under, List.find?_map, Function.comp_def, shown]
      cases place : heap.findTree? (entries.map Prod.fst) tree with
      | none => rfl
      | some index =>
          have inside : index < entries.length := by
            rw [position, List.findIdx?_eq_some_iff_getElem] at place
            exact place.1
          simp [Except.map, Heap.entry?, Heap.entries, found, inside]

/-- What is found with a key reads as what its contents lead to. -/
theorem Sound.tree_valueAt (alive : heap.payload? container ≠ none)
    (present : heap.payload? key ≠ none) (proper : (heap.tree key).hasNan = false) :
    (heap.valueAt container key).map heap.tree = (heap.tree container).under (heap.tree key) := by
  have depicts := sound.balanced.depicts (sound.acyclic.endsWithin key) present
  rw [← sound.tree_readAt alive, valueAt, readAt, sound.spot_eq depicts proper]
  rfl

end Heap

end ScriptEngine
