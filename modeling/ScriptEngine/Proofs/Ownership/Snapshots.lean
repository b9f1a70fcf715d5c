import ScriptEngine.Proofs.Ownership.Copies
import ScriptEngine.Proofs.Ownership.Shelter

/-!
# What is kept stays as it is

What is built from a tree reads as that tree, and all that a kept object leads to
reads as it did, whatever runs meanwhile: nothing that is written to can be reached
from it.  So parts of it that are copied later are copied as they were.
-/

namespace ScriptEngine

namespace Heap

variable {heap before middle after later : Heap} {root : Address}

/-! ## What is built from a tree -/

theorem Survives.allocate_slots (heap : Heap) (slots : List Address) (type : StaticType)
    (payload : Payload) : Survives heap ((heap.enterSlots slots).allocate type payload).2 :=
  (Remains.enterSlots heap slots).survives.trans (.allocate _ type payload)

/-- An object with the slots of its payload reads as the payload does. -/
theorem Extends.treeWithin_root {slots : List Address} {type : StaticType} {payload : Payload}
    (extends' : Extends ((heap.enterSlots slots).allocate type payload).2 later)
    (survives : Survives ((heap.enterSlots slots).allocate type payload).2 later) (depth : Nat) :
    later.treeWithin (depth + 1) ((heap.enterSlots slots).allocate type payload).1 =
      match payload with
      | .scalar value => .scalar type value
      | .vector elements => .vector type (elements.map (later.treeWithin depth))
      | .dict entries => .dict type (entries.map fun entry =>
          (later.treeWithin depth entry.1, later.treeWithin depth entry.2)) := by
  obtain ⟨address, grown, found⟩ := extends'.root
  have typed : later.type heap.cells.size = type := by
    have made := get?_allocate (heap.enterSlots slots) type payload heap.cells.size
    rw [if_pos (Remains.enterSlots heap slots).cells.symm] at made
    rw [survives.type (by omega) found, Heap.type, made]
  rw [address, treeWithin_succ, found, typed]
  cases payload <;> rfl

mutual

theorem treeWithin_build : (tree : Tree) → ∀ {heap later : Heap} {depth : Nat},
    Extends (heap.build tree).2 later → Survives (heap.build tree).2 later → tree.size ≤ depth →
      later.treeWithin depth (heap.build tree).1 = tree
  | .scalar type value, heap, later, depth, extends', survives, deep => by
      obtain ⟨depth, rfl⟩ := Nat.exists_eq_add_of_le' deep
      exact @Extends.treeWithin_root heap later [] type (.scalar value) extends' survives depth
  | .vector type trees, heap, later, depth, extends', survives, deep => by
      rw [Tree.size, Nat.add_comm] at deep
      obtain ⟨depth, rfl⟩ := Nat.exists_eq_add_of_le' (Nat.le_of_add_left_le deep)
      have parts := treeWithin_buildAll trees ((Extends.allocate _ _ _ _).trans extends')
        ((Survives.allocate_slots _ _ _ _).trans survives) (Nat.le_of_succ_le_succ deep)
      simp only [build, Extends.treeWithin_root extends' survives, parts]
  | .dict type pairs, heap, later, depth, extends', survives, deep => by
      rw [Tree.size, Nat.add_comm] at deep
      obtain ⟨depth, rfl⟩ := Nat.exists_eq_add_of_le' (Nat.le_of_add_left_le deep)
      have parts := treeWithin_buildEntries pairs ((Extends.allocate _ _ _ _).trans extends')
        ((Survives.allocate_slots _ _ _ _).trans survives) (Nat.le_of_succ_le_succ deep)
      simp only [build, Extends.treeWithin_root extends' survives, parts]

theorem treeWithin_buildAll : (trees : List Tree) → ∀ {heap later : Heap} {depth : Nat},
    Extends (heap.buildAll trees).2 later → Survives (heap.buildAll trees).2 later →
      Tree.sizeAll trees ≤ depth →
        (heap.buildAll trees).1.map (later.treeWithin depth) = trees
  | [], _, _, _, _, _, _ => rfl
  | tree :: trees, heap, later, depth, extends', survives, deep => by
      rw [Tree.sizeAll] at deep
      have first := treeWithin_build tree ((Extends.buildAll (heap.build tree).2 trees).trans extends')
        ((Survives.buildAll (heap.build tree).2 trees).trans survives)
        (Nat.le_of_add_right_le deep)
      have others := treeWithin_buildAll trees extends' survives (Nat.le_of_add_left_le deep)
      simp only [buildAll, List.map_cons, first, others]

theorem treeWithin_buildEntries : (pairs : List (Tree × Tree)) → ∀ {heap later : Heap}
    {depth : Nat}, Extends (heap.buildEntries pairs).2 later →
      Survives (heap.buildEntries pairs).2 later → Tree.sizeEntries pairs ≤ depth →
        (heap.buildEntries pairs).1.map (fun entry =>
          (later.treeWithin depth entry.1, later.treeWithin depth entry.2)) = pairs
  | [], _, _, _, _, _, _ => rfl
  | (key, value) :: pairs, heap, later, depth, extends', survives, deep => by
      rw [Tree.sizeEntries] at deep
      have wider := (Extends.buildEntries ((heap.build key).2.build value).2 pairs).trans extends'
      have living := (Survives.buildEntries ((heap.build key).2.build value).2 pairs).trans survives
      have first := treeWithin_build key ((Extends.build (heap.build key).2 value).trans wider)
        ((Survives.build (heap.build key).2 value).trans living) (show key.size ≤ depth by omega)
      have second := treeWithin_build value wider living (show value.size ≤ depth by omega)
      have others := treeWithin_buildEntries pairs extends' survives (Nat.le_of_add_left_le deep)
      simp only [buildEntries, List.map_cons, first, second, others]

end

mutual

theorem size_build : (tree : Tree) → ∀ heap : Heap,
    (heap.build tree).2.cells.size = heap.cells.size + tree.size
  | .scalar _ _, heap => size_allocate
  | .vector _ trees, heap => by
      rw [build, size_allocate, (Remains.enterSlots _ _).cells, size_buildAll trees heap, Tree.size]
      omega
  | .dict _ pairs, heap => by
      rw [build, size_allocate, (Remains.enterSlots _ _).cells, size_buildEntries pairs heap,
        Tree.size]
      omega

theorem size_buildAll : (trees : List Tree) → ∀ heap : Heap,
    (heap.buildAll trees).2.cells.size = heap.cells.size + Tree.sizeAll trees
  | [], _ => rfl
  | tree :: trees, heap => by
      rw [buildAll, size_buildAll trees, size_build tree heap, Tree.sizeAll, Nat.add_assoc]

theorem size_buildEntries : (pairs : List (Tree × Tree)) → ∀ heap : Heap,
    (heap.buildEntries pairs).2.cells.size = heap.cells.size + Tree.sizeEntries pairs
  | [], _ => rfl
  | (key, value) :: pairs, heap => by
      rw [buildEntries, size_buildEntries pairs, size_build value, size_build key heap,
        Tree.sizeEntries]
      omega

end

/-- As long as it survives, what is built reads as the tree. -/
theorem tree_of_build {tree : Tree} (extends' : Extends (heap.build tree).2 later)
    (survives : Survives (heap.build tree).2 later) : later.tree (heap.build tree).1 = tree := by
  refine treeWithin_build tree extends' survives ?_
  have size := extends'.1
  rw [size_build] at size
  omega

theorem tree_build (heap : Heap) (tree : Tree) :
    (heap.build tree).2.tree (heap.build tree).1 = tree :=
  tree_of_build (.refl _) (.refl _)

/-- What survives in sound heaps reads as before. -/
theorem Survives.tree (survives : Survives before after)
    {slots handles slots' handles' : Multiset Address} (sound : before.Sound slots handles)
    (sound' : after.Sound slots' handles') {address : Address}
    (old : before.payload? address ≠ none) (alive : after.payload? address ≠ none) :
    after.tree address = before.tree address := by
  obtain ⟨payload, found⟩ := Option.ne_none_iff_exists'.mp old
  exact (survives.alike sound.balanced sound'.balanced (lt_size_of_payload? found) alive).tree
    sound.grounded sound'.grounded

section

variable {slots handles : Multiset Address} (sound : heap.Sound slots handles) (tree : Tree)
include sound

theorem Sound.build : (heap.build tree).2.Sound slots ((heap.build tree).1 ::ₘ handles) := by
  have started : heap.Sound slots (0 + handles) := by rwa [zero_add]
  simpa using started.crafted (Crafted.build heap tree)

/-- What is built reads as the tree, and whatever there was as before. -/
theorem Sound.tree_build : (heap.build tree).2.tree (heap.build tree).1 = tree ∧
    ∀ {address}, heap.payload? address ≠ none →
      (heap.build tree).2.tree address = heap.tree address := by
  have built := sound.build tree
  constructor
  · exact Heap.tree_build heap tree
  · intro address alive
    have extends' := Extends.build heap tree
    obtain ⟨payload, found⟩ := Option.ne_none_iff_exists'.mp alive
    have same := extends'.2 address (lt_size_of_payload? found)
    exact (Survives.build heap tree).tree sound built alive (same ▸ alive)

end

/-! ## What is new -/

/-- What is held, and what it leads to, was made after the heap had a size. -/
structure Young (size : Nat) (heap : Heap) (held : Multiset Address) : Prop where
  sized : size ≤ heap.cells.size
  held : ∀ address ∈ held, size ≤ address
  child : ∀ {holder child}, size ≤ holder → heap.Holds holder child → size ≤ child

namespace Young

variable {size : Nat} {held held' : Multiset Address}

theorem remains (young : Young size heap held) (remains : Remains heap after)
    (fewer : ∀ address ∈ held', address ∈ held) : Young size after held' where
  sized := young.sized.trans remains.size
  held address member := young.held address (fewer address member)
  child := by
    rintro holder child old ⟨payload, found, member⟩
    exact young.child old ⟨payload, remains.payload found, member⟩

theorem allocate {payload : Payload} (young : Young size heap (payload.children + held))
    (type : StaticType) :
    Young size (heap.allocate type payload).2 (heap.cells.size ::ₘ held) where
  sized := young.sized.trans (Survives.allocate heap type payload).size
  held address member := by
    rcases Multiset.mem_cons.mp member with rfl | member
    · exact young.sized
    · exact young.held address (Multiset.mem_add.mpr (Or.inr member))
  child := by
    rintro holder child old ⟨content, found, member⟩
    rw [payload?_allocate] at found
    split at found
    · cases found
      exact young.held child (Multiset.mem_add.mpr (Or.inl (Multiset.mem_coe.mpr member)))
    · exact young.child old ⟨content, found, member⟩

theorem crafting (size : Nat) :
    Crafting fun heap slots handles => Young size heap (slots + handles) where
  enter young := young.remains (.enterSlot _ _) fun address member => by
    simpa [or_left_comm] using member
  leave young := young.remains (.leaveSlot _ _) fun address member => by
    simpa [or_left_comm] using member
  release young := young.remains (.release _ _) fun address member => by
    simp only [Multiset.mem_add, Multiset.mem_cons] at member ⊢
    tauto
  allocate payload type young := by
    rw [add_assoc] at young
    rw [Multiset.add_cons]
    exact young.allocate type

theorem reaches (young : Young size heap held) {address : Address} (member : root ∈ held)
    (reaches : heap.Reaches {root} address) : size ≤ address := by
  induction reaches with
  | root same => exact young.held _ (Multiset.mem_singleton.mp same ▸ member)
  | slot _ holds induction => exact young.child induction holds

end Young

/-- What is crafted from nothing leads to nothing that there was. -/
theorem Crafted.young {made : Multiset Address} (crafted : Crafted heap 0 after made) :
    Young heap.cells.size after made := by
  have started : Young heap.cells.size heap (0 + (0 + 0)) := by
    refine ⟨le_rfl, by simp, ?_⟩
    rintro holder child beyond ⟨payload, found, _⟩
    exact absurd (lt_size_of_payload? found) (Nat.not_lt.mpr beyond)
  simpa using crafted (Young.crafting heap.cells.size) started

/-! ## What is apart from what is written to -/

theorem Alike.refl (heap : Heap) (root : Address) : Alike heap heap root :=
  fun _ _ => ⟨rfl, rfl⟩

theorem Alike.trans (first : Alike before middle root) (second : Alike middle after root) :
    Alike before after root := by
  intro address reaches
  obtain ⟨payload, type⟩ := first address reaches
  obtain ⟨payload', type'⟩ := second address (first.reaches.mpr reaches)
  exact ⟨payload'.trans payload, type'.trans type⟩

end Heap

namespace Ledger

variable {licence : Licence} {before after : Ledger} {origin : Heap} {source : Address}

/-- A step leaves all that a kept object leads to as it was. -/
theorem Step.alike (step : Step licence before after) (orderly : before.Orderly)
    (orderly' : after.Orderly) (kept : source ∈ before.kept)
    (alive : after.heap.payload? source ≠ none) :
    Heap.Alike before.heap after.heap source := by
  have avoids := orderly.separated.heap.avoids kept
  have old : source < before.heap.cells.size :=
    orderly.separated.heap.lt_size (Multiset.mem_add.mpr (Or.inl kept))
  refine .of_alive orderly.balanced.heap orderly'.balanced.heap old alive ?_
  intro address reaches small present
  obtain ⟨payload, found⟩ := Option.ne_none_iff_exists'.mp present
  refine ⟨step.payload?_eq small ?_ present, step.evolves.type small found⟩
  rintro container shared shape rfl
  exact avoids container reaches shape (Multiset.mem_add.mpr (Or.inl shared))

/-- An orderly ledger beside an object, which reads as it did in an earlier heap. -/
structure Preserves (origin : Heap) (source : Address) (ledger : Ledger) : Prop where
  orderly : (ledger.beside source).Orderly
  alike : Heap.Alike origin ledger.heap source

theorem Preserves.step : Lasting licence (Preserves origin source) := by
  rintro before after step ⟨orderly, alike⟩
  have framed := step.beside source
  have orderly' := Orderly.step framed orderly
  have member : source ∈ (before.beside source).kept := by
    simp [kept, beside]
  exact ⟨orderly', alike.trans (framed.alike orderly orderly' member orderly'.alive_beside)⟩

end Ledger

end ScriptEngine
