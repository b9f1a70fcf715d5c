import ScriptEngine.Proofs.Ownership.Depths

/-!
# Likeness

An object is alike in two heaps if nothing that slots lead to from it has
another payload or type.  It then reads as the same tree, and compares with
others that are alike as before.  What survives a part of a run in which nothing
is assigned is alike, since all that a living object leads to lives as well.
-/

namespace ScriptEngine

namespace Heap

def Alike (before after : Heap) (root : Address) : Prop :=
  ∀ address, before.Reaches {root} address →
    after.payload? address = before.payload? address ∧ after.type address = before.type address

/-- Objects may be gone, be new and be counted differently, but nothing else. -/
structure Survives (before after : Heap) : Prop where
  size : before.cells.size ≤ after.cells.size
  payload : ∀ {address payload}, address < before.cells.size →
    after.payload? address = some payload → before.payload? address = some payload
  type : ∀ {address payload}, address < before.cells.size →
    after.payload? address = some payload → after.type address = before.type address

variable {before middle after : Heap} {root left right : Address}

/-! ## Objects that are alike -/

namespace Alike

theorem payload (alike : Alike before after root) : after.payload? root = before.payload? root :=
  (alike root (.root (Multiset.mem_singleton_self root))).1

theorem child (alike : Alike before after root) {child : Address}
    (holds : before.Holds root child) : Alike before after child :=
  fun address reaches => alike address (Reaches.child holds reaches)

/-- What is reached is the same as before. -/
theorem reaches (alike : Alike before after root) {address : Address} :
    after.Reaches {root} address ↔ before.Reaches {root} address := by
  constructor
  · intro reached
    exact reached.transport_back fun other => (alike _ other).1
  · intro reached
    exact reached.transport fun other => (alike _ other).1

theorem tree (alike : Alike before after root) (grounded : before.Grounded)
    (grounded' : after.Grounded) : after.tree root = before.tree root := by
  have deep : before.cells.size < before.cells.size + after.cells.size + 1 := by omega
  have deep' : after.cells.size < before.cells.size + after.cells.size + 1 := by omega
  rw [← grounded.tree deep, ← grounded'.tree deep']
  exact treeWithin_eq _ fun reaches => alike _ reaches

theorem equalWithin (depth : Nat) (alike : Alike before after left)
    (alike' : Alike before after right) :
    after.equalWithin depth left right = before.equalWithin depth left right := by
  induction depth generalizing left right with
  | zero => rfl
  | succ depth induction =>
      rw [equalWithin_succ, equalWithin_succ, alike.payload, alike'.payload]
      congr 1
      apply agree_congr
      intro payload other found found' child member counterpart member'
      exact induction (alike.child ⟨payload, found, member⟩) (alike'.child ⟨other, found', member'⟩)

/-- What objects lead to decides whether they are equal. -/
theorem equals (alike : Alike before after left) (alike' : Alike before after right) :
    after.equals left right = before.equals left right := by
  rw [Bool.eq_iff_iff, equals_iff, equals_iff]
  exact exists_congr fun depth => by rw [alike.equalWithin depth alike']

/-- A walk from the object ends as it did. -/
theorem endsWithin {steps : Nat} (alike : Alike before after root)
    (ends : before.EndsWithin steps root) : after.EndsWithin steps root := by
  have same : ∀ {child}, after.Holds root child → before.Holds root child := by
    rintro child ⟨payload, found, member⟩
    exact ⟨payload, alike.payload.symm.trans found, member⟩
  induction steps generalizing root with
  | zero => exact fun child holds => ends child (same holds)
  | succ steps induction =>
      intro child holds
      have alike' := alike.child (same holds)
      refine induction alike' (ends child (same holds)) ?_
      rintro other ⟨payload, found, member⟩
      exact ⟨payload, alike'.payload.symm.trans found, member⟩

section

variable {steps : Nat} (deep : steps ≤ before.cells.size) (deep' : steps ≤ after.cells.size)
include deep deep'

theorem tree_of_ends (alike : Alike before after root) (ends : before.EndsWithin steps root) :
    after.tree root = before.tree root := by
  have same : after.treeWithin (before.cells.size + 1) root =
      before.treeWithin (before.cells.size + 1) root :=
    treeWithin_eq _ fun reaches => alike _ reaches
  rw [Heap.tree, Heap.tree, ← same]
  exact (alike.endsWithin ends).treeWithin_eq (by omega) (by omega)

end

/-- What lives on leads to what does, so only that has to be looked at. -/
theorem of_alive {slots handles slots' handles' : Multiset Address}
    (balanced : before.Balanced slots handles) (balanced' : after.Balanced slots' handles')
    (old : root < before.cells.size) (alive : after.payload? root ≠ none)
    (same : ∀ {address}, before.Reaches {root} address → address < before.cells.size →
      after.payload? address ≠ none →
        after.payload? address = before.payload? address ∧
          after.type address = before.type address) :
    Alike before after root := by
  have living : ∀ {address}, before.Reaches {root} address →
      address < before.cells.size ∧ after.payload? address ≠ none := by
    intro address reaches
    induction reaches with
    | root member =>
        rw [Multiset.mem_singleton.mp member]
        exact ⟨old, alive⟩
    | slot reaches holds induction =>
        obtain ⟨small, present⟩ := induction
        have stored := mem_stored_iff_holds.mpr ⟨_, holds⟩
        obtain ⟨payload, found, member⟩ := holds
        rw [← (same reaches small present).1] at found
        have stored' := mem_stored_iff_holds.mpr ⟨_, payload, found, member⟩
        obtain ⟨object, live⟩ := balanced'.alive
          (Multiset.mem_add.mpr (Or.inl (Multiset.mem_add.mpr (Or.inl stored'))))
        refine ⟨balanced.lt_size ?_, by simp [payload?_of_get? live]⟩
        exact Multiset.mem_add.mpr (Or.inl (Multiset.mem_add.mpr (Or.inl stored)))
  intro address reaches
  obtain ⟨small, present⟩ := living reaches
  exact same reaches small present

/-- Where one object alone is different, those that do not lead to it are alike. -/
theorem of_avoids {target : Address}
    (same : ∀ {address}, target ≠ address → after.payload? address = before.payload? address ∧
      after.type address = before.type address)
    (avoids : ¬ before.Reaches {root} target) : Alike before after root := by
  intro address reaches
  apply same
  rintro rfl
  exact avoids reaches

end Alike

/-! ## What survives -/

theorem Remains.survives (remains : Remains before after) : Survives before after :=
  ⟨remains.size, fun _ found => remains.payload found, fun _ found => remains.type found⟩

namespace Survives

theorem refl (heap : Heap) : Survives heap heap :=
  (Remains.refl heap).survives

theorem trans (first : Survives before middle) (second : Survives middle after) :
    Survives before after := by
  constructor
  · exact first.size.trans second.size
  · intro address payload old found
    exact first.payload old (second.payload (old.trans_le first.size) found)
  · intro address payload old found
    have small := old.trans_le first.size
    exact (second.type small found).trans (first.type old (second.payload small found))

theorem allocate (heap : Heap) (type : StaticType) (payload : Payload) :
    Survives heap (heap.allocate type payload).2 := by
  have same : ∀ {address}, address < heap.cells.size →
      (heap.allocate type payload).2.get? address = heap.get? address :=
    fun old => get?_allocate_of_lt old type payload
  constructor
  · rw [size_allocate]
    exact Nat.le_succ _
  · intro address content old found
    rwa [payload?, same old] at found
  · intro address content old _
    rw [Heap.type, Heap.type, same old]

theorem crafting (start : Heap) : Crafting fun heap _ _ => Survives start heap where
  enter survives := survives.trans (Remains.enterSlot _ _).survives
  leave survives := survives.trans (Remains.leaveSlot _ _).survives
  release survives := survives.trans (Remains.release _ _).survives
  allocate payload type survives := survives.trans (allocate _ type payload)

/-- What is gone does not come back. -/
theorem gone (survives : Survives before after) {address : Address}
    (old : address < before.cells.size) (absent : before.payload? address = none) :
    after.payload? address = none := by
  cases found : after.payload? address with
  | none => rfl
  | some payload =>
      rw [survives.payload old found] at absent
      simp at absent

theorem payload?_eq (survives : Survives before after) {address : Address}
    (old : address < before.cells.size) (alive : after.payload? address ≠ none) :
    after.payload? address = before.payload? address := by
  obtain ⟨payload, found⟩ := Option.ne_none_iff_exists'.mp alive
  rw [found, survives.payload old found]

/-- All that a living object leads to lives as well. -/
theorem alike {slots handles slots' handles' : Multiset Address} (survives : Survives before after)
    (balanced : before.Balanced slots handles) (balanced' : after.Balanced slots' handles')
    (old : root < before.cells.size) (alive : after.payload? root ≠ none) :
    Alike before after root := by
  refine Alike.of_alive balanced balanced' old alive fun _ small present => ?_
  obtain ⟨payload, found⟩ := Option.ne_none_iff_exists'.mp present
  exact ⟨survives.payload?_eq small present, survives.type small found⟩

end Survives

theorem Crafted.survives {heap : Heap} {given made : Multiset Address}
    (crafted : Crafted heap given after made) : Survives heap after :=
  @crafted _ (Survives.crafting heap) 0 0 (Survives.refl heap)

theorem Survives.build (heap : Heap) (tree : Tree) : Survives heap (heap.build tree).2 :=
  (Crafted.build heap tree).survives

theorem Survives.buildAll (heap : Heap) (trees : List Tree) :
    Survives heap (heap.buildAll trees).2 :=
  @Crafting.buildAll _ 0 (Survives.crafting heap) trees heap 0 (.refl heap)

theorem Survives.buildEntries (heap : Heap) (pairs : List (Tree × Tree)) :
    Survives heap (heap.buildEntries pairs).2 :=
  @Crafting.buildEntries _ 0 (Survives.crafting heap) pairs heap 0 (.refl heap)

end Heap

end ScriptEngine
