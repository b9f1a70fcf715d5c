import ScriptEngine.Proofs.Accounting.Heap
import ScriptEngine.Session.Description

/-!
# Building values

Vectors, dicts, trees and described values are all built by the same four
moves: a handle enters a slot, a slot gives its handle back, a handle is
released, and an object takes over the slots of its payload.  Whatever the
four moves keep is kept by every way to build a value.  The first multiset
holds the slots of containers under construction, the second the handles of
the builder.
-/

namespace ScriptEngine.Heap

structure Crafting (Keeps : Heap → Multiset Address → Multiset Address → Prop) : Prop where
  enter : ∀ {heap slots handles address}, Keeps heap slots (address ::ₘ handles) →
    Keeps (heap.enterSlot address) (address ::ₘ slots) handles
  leave : ∀ {heap slots handles address}, Keeps heap (address ::ₘ slots) handles →
    Keeps (heap.leaveSlot address) slots (address ::ₘ handles)
  release : ∀ {heap slots handles address}, Keeps heap slots (address ::ₘ handles) →
    Keeps (heap.release address) slots handles
  allocate : ∀ {heap slots handles} (payload : Payload) (type : StaticType),
    Keeps heap (payload.children + slots) handles →
      Keeps (heap.allocate type payload).2 slots (heap.cells.size ::ₘ handles)

/-- What is counted outside may be added on either side. -/
theorem Balanced.crafting (slots handles : Multiset Address) :
    Crafting fun heap pending owned => heap.Balanced (pending + slots) (owned + handles) where
  enter balanced := by
    rw [Multiset.cons_add] at balanced ⊢
    exact balanced.enterSlot
  leave balanced := by
    rw [Multiset.cons_add] at balanced ⊢
    exact balanced.leaveSlot
  release balanced := by
    apply Balanced.releaseAll
    simpa using balanced
  allocate payload type balanced := by
    rw [Multiset.cons_add]
    apply Balanced.allocate
    rwa [← add_assoc]

/-- Storing an element exchanges two objects. -/
theorem children_set {elements : List Address} {position : Nat} {previous : Address}
    (stored : elements[position]? = some previous) (value : Address) :
    previous ::ₘ ((Payload.vector (elements.set position value)).children : Multiset Address) =
      value ::ₘ ((Payload.vector elements).children : Multiset Address) := by
  simp only [Payload.children]
  induction elements generalizing position with
  | nil => simp at stored
  | cons first others induction =>
      cases position with
      | zero =>
          simp only [List.getElem?_cons_zero, Option.some.injEq] at stored
          subst stored
          simp only [List.set_cons_zero, ← Multiset.cons_coe]
          exact Multiset.cons_swap _ _ _
      | succ position =>
          simp only [List.getElem?_cons_succ] at stored
          have rest := induction stored
          simp only [List.set_cons_succ, ← Multiset.cons_coe]
          rw [Multiset.cons_swap, rest, Multiset.cons_swap]

/-- Storing under a key that is there exchanges two values. -/
theorem children_setEntry {entries : List (Address × Address)} {position : Nat}
    {entry : Address × Address} (stored : entries[position]? = some entry)
    (value : Address) :
    entry.2 ::ₘ ((Payload.dict (setEntry entries position value)).children :
        Multiset Address) =
      value ::ₘ ((Payload.dict entries).children : Multiset Address) := by
  induction entries generalizing position with
  | nil => simp at stored
  | cons first others induction =>
      cases position with
      | zero =>
          simp only [List.getElem?_cons_zero, Option.some.injEq] at stored
          subst stored
          simp only [setEntry, List.modify_zero_cons, Payload.children, List.flatMap_cons,
            List.cons_append, List.nil_append, ← Multiset.cons_coe]
          rw [Multiset.cons_swap first.2 first.1, Multiset.cons_swap first.2 value,
            Multiset.cons_swap first.1 value]
      | succ position =>
          simp only [List.getElem?_cons_succ] at stored
          have rest := induction stored
          simp only [setEntry, Payload.children, List.modify_succ_cons, List.flatMap_cons,
            List.cons_append, List.nil_append, ← Multiset.cons_coe] at rest ⊢
          rw [Multiset.cons_swap, Multiset.cons_swap entry.2, rest, Multiset.cons_swap value,
            Multiset.cons_swap value]

theorem children_append (entries : List (Address × Address)) (key value : Address) :
    ((Payload.dict (entries ++ [(key, value)])).children : Multiset Address) =
      value ::ₘ key ::ₘ ((Payload.dict entries).children : Multiset Address) := by
  simp only [Payload.children, List.flatMap_append, List.flatMap_singleton,
    ← Multiset.coe_add, ← Multiset.cons_coe, Multiset.coe_nil]
  rw [Multiset.add_cons, Multiset.add_cons, add_zero, Multiset.cons_swap]

namespace Crafting

variable {Keeps : Heap → Multiset Address → Multiset Address → Prop}
variable {heap : Heap} {slots handles : Multiset Address}

theorem enterSlots (crafting : Crafting Keeps) {addresses : List Address}
    (kept : Keeps heap slots (addresses + handles)) :
    Keeps (heap.enterSlots addresses) (addresses + slots) handles := by
  induction addresses generalizing heap slots with
  | nil => simpa [Heap.enterSlots] using kept
  | cons address others induction =>
      have first : Keeps (heap.enterSlot address) (address ::ₘ slots) (others + handles) := by
        apply crafting.enter
        simpa [← Multiset.cons_coe] using kept
      have rest := induction first
      simpa [Heap.enterSlots, ← Multiset.cons_coe, Multiset.add_cons] using rest

theorem releaseAll (crafting : Crafting Keeps) {addresses : List Address}
    (kept : Keeps heap slots (addresses + handles)) :
    Keeps (heap.releaseAll addresses) slots handles := by
  induction addresses generalizing heap with
  | nil => simpa using kept
  | cons address others induction =>
      rw [← List.singleton_append, releaseAll_append]
      apply induction
      apply crafting.release
      simpa [← Multiset.cons_coe] using kept

theorem newScalar (crafting : Crafting Keeps) (kept : Keeps heap slots handles)
    (value : Scalar) :
    Keeps (heap.newScalar value).2 slots ((heap.newScalar value).1 ::ₘ handles) := by
  apply crafting.allocate
  simpa [Payload.children] using kept

theorem newVector (crafting : Crafting Keeps) {elements : List Address}
    (kept : Keeps heap slots (elements + handles)) (element : StaticType) :
    Keeps (heap.newVector element elements).2 slots
      ((heap.newVector element elements).1 ::ₘ handles) := by
  have entered := crafting.enterSlots kept
  exact crafting.allocate (.vector elements) (.vector element) entered

theorem newDefault (crafting : Crafting Keeps) (kept : Keeps heap slots handles)
    (type : StaticType) :
    Keeps (heap.newDefault type).2 slots ((heap.newDefault type).1 ::ₘ handles) := by
  apply crafting.allocate
  split
  · simpa [Payload.children] using kept
  · split
    · simpa [Payload.children] using kept
    · simpa [Payload.children] using kept

/-! ## Trees -/

mutual

theorem build (crafting : Crafting Keeps) : (tree : Tree) →
    ∀ {heap : Heap} {handles : Multiset Address}, Keeps heap slots handles →
      Keeps (heap.build tree).2 slots ((heap.build tree).1 ::ₘ handles)
  | .scalar type value, _, _, kept => by
      simp only [Heap.build]
      apply crafting.allocate
      simpa [Payload.children] using kept
  | .vector type elements, _, _, kept => by
      have parts := buildAll crafting elements kept
      simp only [Heap.build]
      exact crafting.allocate (.vector _) type (crafting.enterSlots parts)
  | .dict type entries, _, _, kept => by
      have parts := buildEntries crafting entries kept
      simp only [Heap.build]
      exact crafting.allocate (.dict _) type (crafting.enterSlots parts)

theorem buildAll (crafting : Crafting Keeps) : (trees : List Tree) →
    ∀ {heap : Heap} {handles : Multiset Address}, Keeps heap slots handles →
      Keeps (heap.buildAll trees).2 slots ((heap.buildAll trees).1 + handles)
  | [], _, _, kept => by simpa [Heap.buildAll] using kept
  | tree :: others, _, _, kept => by
      have first := build crafting tree kept
      have rest := buildAll crafting others first
      simpa [Heap.buildAll, ← Multiset.cons_coe, Multiset.add_cons] using rest

theorem buildEntries (crafting : Crafting Keeps) : (entries : List (Tree × Tree)) →
    ∀ {heap : Heap} {handles : Multiset Address}, Keeps heap slots handles →
      Keeps (heap.buildEntries entries).2 slots
        ((Payload.dict (heap.buildEntries entries).1).children + handles)
  | [], _, _, kept => by simpa [Heap.buildEntries, Payload.children] using kept
  | (key, value) :: others, _, _, kept => by
      have first := build crafting key kept
      have second := build crafting value first
      have rest := buildEntries crafting others second
      rw [Multiset.add_cons, Multiset.add_cons, Multiset.cons_swap] at rest
      simpa [Heap.buildEntries, Payload.children, ← Multiset.cons_coe] using rest

end

/-! ## Dicts -/

/-- A key that is there already keeps its object and takes the later value,
whose slot replaces that of the earlier one. -/
theorem insertPair (crafting : Crafting Keeps) {entries : List (Address × Address)}
    {key value : Address}
    (kept : Keeps heap ((Payload.dict entries).children + slots)
      (key ::ₘ value ::ₘ handles)) :
    Keeps (heap.insertPair entries key value).2
      ((Payload.dict (heap.insertPair entries key value).1).children + slots) handles := by
  unfold Heap.insertPair
  split
  · rename_i position found
    obtain ⟨entry, stored⟩ : ∃ entry, entries[position]? = some entry := by
      have bound := (List.findIdx?_eq_some_iff_getElem.mp found).1
      exact ⟨entries[position], List.getElem?_eq_getElem bound⟩
    have exchanged := children_setEntry stored value
    rw [Multiset.cons_swap] at kept
    have entered := crafting.enter kept
    rw [← Multiset.cons_add, ← exchanged, Multiset.cons_add] at entered
    have left := crafting.release (crafting.leave entered)
    simp only [stored]
    exact crafting.release left
  · have entered := crafting.enter (crafting.enter kept)
    rwa [← Multiset.cons_add, ← Multiset.cons_add, ← children_append] at entered

theorem insertPairs (crafting : Crafting Keeps) {pairs entries : List (Address × Address)}
    (kept : Keeps heap ((Payload.dict entries).children + slots)
      ((Payload.dict pairs).children + handles)) :
    Keeps (heap.insertPairs entries pairs).2
      ((Payload.dict (heap.insertPairs entries pairs).1).children + slots) handles := by
  induction pairs generalizing heap entries with
  | nil => simpa [Heap.insertPairs, Payload.children] using kept
  | cons pair others induction =>
      obtain ⟨key, value⟩ := pair
      apply induction
      apply crafting.insertPair
      simpa [Payload.children, ← Multiset.cons_coe] using kept

theorem newDict (crafting : Crafting Keeps) {pairs : List (Address × Address)}
    (kept : Keeps heap slots ((Payload.dict pairs).children + handles))
    (key value : StaticType) :
    Keeps (heap.newDict key value pairs).2 slots
      ((heap.newDict key value pairs).1 ::ₘ handles) := by
  have empty : Keeps heap ((Payload.dict []).children + slots)
      ((Payload.dict pairs).children + handles) := by
    simpa [Payload.children] using kept
  have inserted := crafting.insertPairs empty
  exact crafting.allocate (.dict _) (.dict key value) inserted

/-! ## Described values -/

section Descriptions

variable {holdings : Holdings}

/-- Held objects can be lent to the values built around them. -/
def Lends (Keeps : Heap → Multiset Address → Multiset Address → Prop)
    (holdings : Holdings) (names : List String) : Prop :=
  ∀ name ∈ names, ∀ address, holdings.get? name = some address →
    ∀ {heap slots handles}, Keeps heap slots handles →
      Keeps (heap.retain address) slots (address ::ₘ handles)

theorem Lends.mono {names fewer : List String} (lends : Lends Keeps holdings names)
    (subset : fewer ⊆ names) : Lends Keeps holdings fewer :=
  fun name member => lends name (subset member)

mutual

theorem describe (crafting : Crafting Keeps) : (description : Description) →
    Lends Keeps holdings description.names →
    ∀ {heap : Heap} {slots handles : Multiset Address}, Keeps heap slots handles →
      Keeps (description.allocate holdings heap).2 slots
        ((description.allocate holdings heap).1 ::ₘ handles)
  | .scalar value, _, _, _, _, kept => crafting.newScalar kept value
  | .vector element elements, lends, _, _, _, kept => by
      have parts := describeAll crafting elements lends kept
      exact crafting.newVector parts element
  | .dict key value entries, lends, _, _, _, kept => by
      have parts := describeEntries crafting entries lends kept
      exact crafting.newDict parts key value
  | .default type, _, _, _, _, kept => crafting.newDefault kept type
  | .held name, lends, _, _, _, kept => by
      simp only [Description.allocate]
      split
      · rename_i address found
        exact lends name (by simp [Description.names]) address found kept
      · exact crafting.newScalar kept .none

theorem describeAll (crafting : Crafting Keeps) : (descriptions : List Description) →
    Lends Keeps holdings (Description.namesAll descriptions) →
    ∀ {heap : Heap} {slots handles : Multiset Address}, Keeps heap slots handles →
      Keeps (Description.allocateAll holdings heap descriptions).2 slots
        ((Description.allocateAll holdings heap descriptions).1 + handles)
  | [], _, _, _, _, kept => by simpa [Description.allocateAll] using kept
  | description :: others, lends, _, _, _, kept => by
      have first := describe crafting description
        (lends.mono (by simp [Description.namesAll])) kept
      have rest := describeAll crafting others
        (lends.mono (by simp [Description.namesAll])) first
      simpa [Description.allocateAll, ← Multiset.cons_coe, Multiset.add_cons] using rest

theorem describeEntries (crafting : Crafting Keeps) :
    (entries : List (Description × Description)) →
    Lends Keeps holdings (Description.namesEntries entries) →
    ∀ {heap : Heap} {slots handles : Multiset Address}, Keeps heap slots handles →
      Keeps (Description.allocateEntries holdings heap entries).2 slots
        ((Payload.dict (Description.allocateEntries holdings heap entries).1).children +
          handles)
  | [], _, _, _, _, kept => by simpa [Description.allocateEntries, Payload.children] using kept
  | (key, value) :: others, lends, _, _, _, kept => by
      have first := describe crafting key
        (lends.mono (by simp [Description.namesEntries])) kept
      have second := describe crafting value
        (lends.mono (by simp [Description.namesEntries])) first
      have rest := describeEntries crafting others
        (lends.mono (by simp [Description.namesEntries])) second
      rw [Multiset.add_cons, Multiset.add_cons, Multiset.cons_swap] at rest
      simpa [Description.allocateEntries, Payload.children, ← Multiset.cons_coe] using rest

end

end Descriptions

end Crafting

/-! ## Values built apart from a heap -/

/-- What the four moves can make of a heap and of handles that are given, in
any surroundings. -/
def Crafted (before : Heap) (given : Multiset Address) (after : Heap)
    (made : Multiset Address) : Prop :=
  ∀ ⦃Keeps : Heap → Multiset Address → Multiset Address → Prop⦄, Crafting Keeps →
    ∀ ⦃slots handles : Multiset Address⦄,
      Keeps before slots (given + handles) → Keeps after slots (made + handles)

namespace Crafted

variable {heap middle after : Heap} {given between made : Multiset Address}

theorem refl (heap : Heap) (given : Multiset Address) : Crafted heap given heap given :=
  fun _ _ _ _ kept => kept

theorem trans (first : Crafted heap given middle between)
    (second : Crafted middle between after made) : Crafted heap given after made :=
  fun _ crafting _ _ kept => second crafting (first crafting kept)

theorem frame (crafted : Crafted heap given after made) (others : Multiset Address) :
    Crafted heap (given + others) after (made + others) := by
  intro Keeps crafting slots handles kept
  rw [add_assoc] at kept ⊢
  exact crafted crafting kept

theorem build (heap : Heap) (tree : Tree) :
    Crafted heap 0 (heap.build tree).2 {(heap.build tree).1} := by
  intro Keeps crafting slots handles kept
  rw [zero_add] at kept
  exact crafting.build tree kept

theorem copy (heap : Heap) (address : Address) :
    Crafted heap 0 (heap.copy address).2 {(heap.copy address).1} :=
  build heap (heap.tree address)

theorem newScalar (heap : Heap) (value : Scalar) :
    Crafted heap 0 (heap.newScalar value).2 {(heap.newScalar value).1} :=
  build heap (.scalar value.type value)

theorem newDefault (heap : Heap) (type : StaticType) :
    Crafted heap 0 (heap.newDefault type).2 {(heap.newDefault type).1} := by
  intro Keeps crafting slots handles kept
  rw [zero_add] at kept
  exact crafting.newDefault kept type

theorem newVector (heap : Heap) (element : StaticType) (elements : List Address) :
    Crafted heap elements (heap.newVector element elements).2
      {(heap.newVector element elements).1} :=
  fun _ crafting _ _ kept => crafting.newVector kept element

theorem newDict (heap : Heap) (key value : StaticType) (pairs : List (Address × Address)) :
    Crafted heap (Payload.dict pairs).children (heap.newDict key value pairs).2
      {(heap.newDict key value pairs).1} :=
  fun _ crafting _ _ kept => crafting.newDict kept key value

theorem releaseAll (heap : Heap) (addresses : List Address) :
    Crafted heap addresses (heap.releaseAll addresses) 0 := by
  intro Keeps crafting slots handles kept
  rw [zero_add]
  exact crafting.releaseAll kept

end Crafted

/-- What runs make: each dict is built from pairs in turn, or copied whole. -/
inductive Fashioned : Heap → Multiset Address → Heap → Multiset Address → Prop where
  | refl (heap : Heap) (given : Multiset Address) : Fashioned heap given heap given
  | trans {heap middle after : Heap} {given between made : Multiset Address} :
      Fashioned heap given middle between → Fashioned middle between after made →
      Fashioned heap given after made
  | frame {heap after : Heap} {given made : Multiset Address} (others : Multiset Address) :
      Fashioned heap given after made → Fashioned heap (given + others) after (made + others)
  | newScalar (heap : Heap) (value : Scalar) :
      Fashioned heap 0 (heap.newScalar value).2 {(heap.newScalar value).1}
  | newDefault (heap : Heap) (type : StaticType) :
      Fashioned heap 0 (heap.newDefault type).2 {(heap.newDefault type).1}
  | newVector (heap : Heap) (element : StaticType) (elements : List Address) :
      Fashioned heap elements (heap.newVector element elements).2
        {(heap.newVector element elements).1}
  | newDict (heap : Heap) (key value : StaticType) (pairs : List (Address × Address)) :
      Fashioned heap (Payload.dict pairs).children (heap.newDict key value pairs).2
        {(heap.newDict key value pairs).1}
  | copy (heap : Heap) (address : Address) :
      Fashioned heap 0 (heap.copy address).2 {(heap.copy address).1}
  | releaseAll (heap : Heap) (addresses : List Address) :
      Fashioned heap addresses (heap.releaseAll addresses) 0

theorem Fashioned.crafted {heap after : Heap} {given made : Multiset Address}
    (fashioned : Fashioned heap given after made) : Crafted heap given after made := by
  induction fashioned with
  | refl heap given => exact .refl heap given
  | trans _ _ first second => exact first.trans second
  | frame others _ induction => exact induction.frame others
  | newScalar heap value => exact .newScalar heap value
  | newDefault heap type => exact .newDefault heap type
  | newVector heap element elements => exact .newVector heap element elements
  | newDict heap key value pairs => exact .newDict heap key value pairs
  | copy heap address => exact .copy heap address
  | releaseAll heap addresses => exact .releaseAll heap addresses

/-! ## Descriptions that name nothing -/

namespace Fashioned

/-- One part and then the others. -/
theorem append {heap middle after : Heap} {first second : Multiset Address}
    (one : Fashioned heap 0 middle first) (other : Fashioned middle 0 after second) :
    Fashioned heap 0 after (second + first) := by
  have both := other.frame first
  rw [zero_add] at both
  exact one.trans both

mutual

theorem describe (holdings : Holdings) : (description : Description) →
    description.names = [] → ∀ heap : Heap,
      Fashioned heap 0 (description.allocate holdings heap).2
        {(description.allocate holdings heap).1}
  | .scalar value, _, heap => newScalar heap value
  | .vector element elements, nameless, heap =>
      (describeAll holdings elements nameless heap).trans (newVector _ element _)
  | .dict key value entries, nameless, heap =>
      (describeEntries holdings entries nameless heap).trans (newDict _ key value _)
  | .default type, _, heap => newDefault heap type
  | .held name, nameless, heap => by simp [Description.names] at nameless

theorem describeAll (holdings : Holdings) : (descriptions : List Description) →
    Description.namesAll descriptions = [] → ∀ heap : Heap,
      Fashioned heap 0 (Description.allocateAll holdings heap descriptions).2
        (Description.allocateAll holdings heap descriptions).1
  | [], _, heap => refl heap 0
  | description :: others, nameless, heap => by
      rw [Description.namesAll, List.append_eq_nil_iff] at nameless
      have parts := (describe holdings description nameless.1 heap).append
        (describeAll holdings others nameless.2 _)
      simpa [Description.allocateAll, ← Multiset.cons_coe, ← Multiset.singleton_add,
        add_comm] using parts

theorem describeEntries (holdings : Holdings) : (entries : List (Description × Description)) →
    Description.namesEntries entries = [] → ∀ heap : Heap,
      Fashioned heap 0 (Description.allocateEntries holdings heap entries).2
        (Payload.dict (Description.allocateEntries holdings heap entries).1).children
  | [], _, heap => refl heap 0
  | (key, value) :: others, nameless, heap => by
      rw [Description.namesEntries, List.append_eq_nil_iff, List.append_eq_nil_iff] at nameless
      have parts := ((describe holdings key nameless.1.1 heap).append
        (describe holdings value nameless.1.2 _)).append
          (describeEntries holdings others nameless.2 _)
      simpa [Description.allocateEntries, Payload.children, ← Multiset.cons_coe,
        ← Multiset.singleton_add, add_comm, add_left_comm, add_assoc] using parts

end

end Fashioned

end ScriptEngine.Heap
