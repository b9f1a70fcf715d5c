import Mathlib.Algebra.Order.Group.Multiset
import ScriptEngine.Heap.Release

/-!
# Balanced heaps

The slots and the handles that exist outside the heap are given as multisets
of addresses; the slots inside it are those of its containers.  A heap is
balanced with them when every object counts exactly the slots and handles on
it, has one at least, and nothing refers to an object that is gone.  Every
operation of the heap moves addresses between the multisets and keeps the
balance.
-/

namespace ScriptEngine.Heap

/-- The objects that the slots of a cell hold. -/
def cellChildren : Option Object → List Address
  | some object => object.payload.children
  | none => []

/-- The objects that slots inside containers hold, once for each slot. -/
def stored (heap : Heap) : Multiset Address :=
  heap.cells.toList.flatMap cellChildren

structure Balanced (heap : Heap) (slots handles : Multiset Address) : Prop where
  slotted : ∀ {address object}, heap.get? address = some object →
    object.slots = (heap.stored + slots).count address
  handled : ∀ {address object}, heap.get? address = some object →
    object.handles = (heap.stored + slots + handles).count address
  needed : ∀ {address object}, heap.get? address = some object → 0 < object.handles
  alive : ∀ {address}, address ∈ heap.stored + slots + handles →
    ∃ object, heap.get? address = some object
  sound : heap.underflowed = false

/-- Nothing changes where there is no object. -/
theorem modify_eq_self {heap : Heap} {address : Address}
    (absent : heap.get? address = none) (change : Object → Object) :
    heap.modify address change = heap := by
  have same : heap.cells.modify address (Option.map change) = heap.cells := by
    apply Array.ext_getElem?
    intro position
    rw [Array.getElem?_modify]
    split
    · rename_i equal
      subst equal
      have empty : heap.cells[address]?.join = none := absent
      cases cell : heap.cells[address]? with
      | none => rfl
      | some object? => simp_all
    · rfl
  simp [modify, same]

/-! ## Stored objects under changes of one cell -/

theorem stored_modify {heap : Heap} {address : Address} {change : Object → Object}
    (keeps : ∀ object, (change object).payload.children = object.payload.children) :
    (heap.modify address change).stored = heap.stored := by
  have cell : ∀ cell : Option Object, cellChildren (cell.map change) = cellChildren cell := by
    intro cell
    cases cell with
    | none => rfl
    | some object => exact keeps object
  have cells : ∀ (cells : List (Option Object)) (position : Nat),
      (cells.modify position (Option.map change)).flatMap cellChildren =
        cells.flatMap cellChildren := by
    intro cells
    induction cells with
    | nil => simp
    | cons first others induction =>
        intro position
        cases position with
        | zero => simp [cell]
        | succ position => simp [induction]
  simp [stored, modify, cells]

/-- Replacing one cell replaces what its slots hold. -/
theorem stored_set {heap : Heap} {address : Address} {object : Object}
    (found : heap.get? address = some object) (cell : Option Object) :
    stored { heap with cells := heap.cells.setIfInBounds address cell } +
        (object.payload.children : Multiset Address) =
      heap.stored + (cellChildren cell : Multiset Address) := by
  have cells : ∀ (cells : List (Option Object)) (position : Nat),
      cells[position]? = some (some object) →
        ((cells.set position cell).flatMap cellChildren : Multiset Address) +
            (object.payload.children : Multiset Address) =
          (cells.flatMap cellChildren : Multiset Address) +
            (cellChildren cell : Multiset Address) := by
    intro cells
    induction cells with
    | nil => simp
    | cons first others induction =>
        intro position stored
        cases position with
        | zero =>
            simp only [List.getElem?_cons_zero, Option.some.injEq] at stored
            subst stored
            simp only [List.set_cons_zero, List.flatMap_cons, ← Multiset.coe_add,
              cellChildren]
            ac_rfl
        | succ position =>
            simp only [List.getElem?_cons_succ] at stored
            have rest := induction position stored
            simp only [List.set_cons_succ, List.flatMap_cons, ← Multiset.coe_add, add_assoc]
            rw [rest]
  have joined : heap.cells[address]?.join = some object := found
  have stored : heap.cells.toList[address]? = some (some object) := by
    rw [Array.getElem?_toList]
    exact Option.join_eq_some_iff.mp joined
  simpa [Heap.stored] using cells heap.cells.toList address stored

theorem stored_setPayload {heap : Heap} {address : Address} {object : Object}
    (found : heap.get? address = some object) (payload : Payload) :
    (heap.setPayload address payload).stored +
        (object.payload.children : Multiset Address) =
      heap.stored + (payload.children : Multiset Address) := by
  have same : heap.cells.modify address
      (Option.map fun object => { object with payload := payload }) =
        heap.cells.setIfInBounds address (some { object with payload := payload }) := by
    have joined : heap.cells[address]?.join = some object := found
    have cell := Option.join_eq_some_iff.mp joined
    apply Array.ext_getElem?
    intro position
    rw [Array.getElem?_modify, Array.getElem?_setIfInBounds]
    split
    · rename_i equal
      subst equal
      rw [cell, if_pos (lt_size_of_get?_eq_some found)]
      rfl
    · rfl
  simpa [setPayload, modify, same, cellChildren] using
    stored_set found (some { object with payload := payload })

/-- An object after a change comes from one before it. -/
theorem get?_of_get?_modify {heap : Heap} {target address : Address}
    {change : Object → Object} {after : Object}
    (found : (heap.modify target change).get? address = some after) :
    ∃ before, heap.get? address = some before ∧
      (if target = address then change before else before) = after := by
  rw [get?_modify] at found
  split
  · rename_i same
    rw [if_pos same] at found
    exact Option.map_eq_some_iff.mp found
  · rename_i different
    rw [if_neg different] at found
    exact ⟨after, found, rfl⟩

theorem get?_allocate (heap : Heap) (type : StaticType) (payload : Payload)
    (address : Address) :
    (heap.allocate type payload).2.get? address =
      if address = heap.cells.size then
        some { type := type, payload := payload, zone := heap.zone,
               serial := heap.issued.getD heap.zone 0 }
      else heap.get? address := by
  split
  · rename_i same
    subst same
    exact get?_allocate_self heap type payload
  · rename_i different
    simp [allocate, get?, Array.getElem?_push, different]

theorem stored_allocate (heap : Heap) (type : StaticType) (payload : Payload) :
    (heap.allocate type payload).2.stored =
      heap.stored + (payload.children : Multiset Address) := by
  simp [stored, allocate, cellChildren, ← Multiset.coe_add]

theorem stored_erase {heap : Heap} {address : Address} {object : Object}
    (found : heap.get? address = some object) :
    (heap.erase address).stored + (object.payload.children : Multiset Address) =
      heap.stored := by
  simpa [erase, cellChildren] using stored_set found none

theorem get?_erase (heap : Heap) (target address : Address) :
    (heap.erase target).get? address =
      if target = address then none else heap.get? address := by
  simp only [get?, erase, Array.getElem?_setIfInBounds]
  by_cases same : target = address
  · subst same
    by_cases inside : target < heap.cells.size
    · simp [inside]
    · simp [inside]
  · simp [same]

theorem mem_stored {heap : Heap} {child : Address} :
    child ∈ heap.stored ↔
      ∃ address object, heap.get? address = some object ∧ child ∈ object.payload.children := by
  simp only [stored, Multiset.mem_coe, List.mem_flatMap]
  constructor
  · rintro ⟨cell, member, inside⟩
    cases cell with
    | none => simp [cellChildren] at inside
    | some object =>
        obtain ⟨address, bound, found⟩ := List.mem_iff_getElem.mp member
        refine ⟨address, object, ?_, inside⟩
        have inArray : address < heap.cells.size := by simpa using bound
        simp only [Array.getElem_toList] at found
        simp [get?, Array.getElem?_eq_getElem inArray, found]
  · rintro ⟨address, object, found, inside⟩
    refine ⟨some object, ?_, inside⟩
    have joined : heap.cells[address]?.join = some object := found
    have stored := Option.join_eq_some_iff.mp joined
    exact Array.mem_toList_iff.mpr (Array.mem_of_getElem? stored)

/-! ## Payloads under changes of counts -/

theorem payload?_eq_some_iff {heap : Heap} {address : Address} {payload : Payload} :
    heap.payload? address = some payload ↔
      ∃ object, heap.get? address = some object ∧ object.payload = payload :=
  Option.map_eq_some_iff

theorem payload?_of_get? {heap : Heap} {address : Address} {object : Object}
    (found : heap.get? address = some object) : heap.payload? address = some object.payload :=
  payload?_eq_some_iff.mpr ⟨object, found, rfl⟩

theorem payload?_modify {heap : Heap} {address : Address} {change : Object → Object}
    (keeps : ∀ object, (change object).payload = object.payload) (other : Address) :
    (heap.modify address change).payload? other = heap.payload? other := by
  rw [payload?, payload?, get?_modify]
  split
  · rw [Option.map_map]
    congr 1
    funext object
    exact keeps object
  · rfl

theorem type_modify {heap : Heap} {address : Address} {change : Object → Object}
    (keeps : ∀ object, (change object).type = object.type) (other : Address) :
    (heap.modify address change).type other = heap.type other := by
  rw [type, type, get?_modify]
  by_cases same : address = other
  · rw [if_pos same]
    cases heap.get? other with
    | none => rfl
    | some object => exact keeps object
  · rw [if_neg same]

@[simp] theorem type_setPayload (heap : Heap) (container address : Address)
    (payload : Payload) : (heap.setPayload container payload).type address = heap.type address := by
  rw [setPayload]
  apply type_modify
  intro object
  rfl

@[simp] theorem type_enterSlot (heap : Heap) (address other : Address) :
    (heap.enterSlot address).type other = heap.type other := by
  apply type_modify
  intro object
  rfl

@[simp] theorem type_leaveSlot (heap : Heap) (address other : Address) :
    (heap.leaveSlot address).type other = heap.type other := by
  simp only [leaveSlot]
  split
  · have marked := @type_modify { heap with underflowed := true } address
      (fun object => { object with slots := object.slots - 1 }) (fun _ => rfl) other
    exact marked
  · apply type_modify
    intro object
    rfl

@[simp] theorem type_enterSlots (heap : Heap) (addresses : List Address) (other : Address) :
    (heap.enterSlots addresses).type other = heap.type other := by
  induction addresses generalizing heap with
  | nil => rfl
  | cons address others induction =>
      exact (induction (heap.enterSlot address)).trans (type_enterSlot heap address other)

@[simp] theorem type_leaveSlots (heap : Heap) (addresses : List Address) (other : Address) :
    (heap.leaveSlots addresses).type other = heap.type other := by
  induction addresses generalizing heap with
  | nil => rfl
  | cons address others induction =>
      exact (induction (heap.leaveSlot address)).trans (type_leaveSlot heap address other)

theorem payload?_setPayload_of_ne {heap : Heap} {container address : Address}
    (different : container ≠ address) (payload : Payload) :
    (heap.setPayload container payload).payload? address = heap.payload? address := by
  rw [payload?, setPayload, get?_modify, if_neg different]
  rfl

theorem payload?_setPayload_self {heap : Heap} {container : Address} {payload : Payload}
    (found : heap.payload? container = some payload) (written : Payload) :
    (heap.setPayload container written).payload? container = some written := by
  obtain ⟨object, alive, _⟩ := payload?_eq_some_iff.mp found
  rw [payload?, setPayload, get?_modify, if_pos rfl, alive]
  rfl

@[simp] theorem payload?_retain (heap : Heap) (address other : Address) :
    (heap.retain address).payload? other = heap.payload? other := by
  apply payload?_modify
  intro object
  rfl

@[simp] theorem payload?_enterSlot (heap : Heap) (address other : Address) :
    (heap.enterSlot address).payload? other = heap.payload? other := by
  apply payload?_modify
  intro object
  rfl

@[simp] theorem payload?_enterSlots (heap : Heap) (addresses : List Address)
    (other : Address) :
    (heap.enterSlots addresses).payload? other = heap.payload? other := by
  induction addresses generalizing heap with
  | nil => rfl
  | cons address others induction =>
      have rest := induction (heap.enterSlot address)
      rw [payload?_enterSlot] at rest
      exact rest

@[simp] theorem payload?_leaveSlot (heap : Heap) (address other : Address) :
    (heap.leaveSlot address).payload? other = heap.payload? other := by
  simp only [leaveSlot]
  split
  · have marked := @payload?_modify { heap with underflowed := true } address
      (fun object => { object with slots := object.slots - 1 }) (fun _ => rfl) other
    exact marked
  · apply payload?_modify
    intro object
    rfl

@[simp] theorem payload?_leaveSlots (heap : Heap) (addresses : List Address)
    (other : Address) :
    (heap.leaveSlots addresses).payload? other = heap.payload? other := by
  induction addresses generalizing heap with
  | nil => rfl
  | cons address others induction =>
      have rest := induction (heap.leaveSlot address)
      rw [payload?_leaveSlot] at rest
      exact rest

/-! ## Operations on one object -/

namespace Balanced

variable {heap : Heap} {slots handles : Multiset Address}

theorem lt_size (balanced : heap.Balanced slots handles) {address : Address}
    (member : address ∈ heap.stored + slots + handles) : address < heap.cells.size := by
  obtain ⟨object, found⟩ := balanced.alive member
  exact lt_size_of_get?_eq_some found

/-- An object of a balanced heap is referred to. -/
theorem mem_of_get? (balanced : heap.Balanced slots handles) {address : Address}
    {object : Object} (found : heap.get? address = some object) :
    address ∈ heap.stored + slots + handles := by
  rw [← Multiset.count_pos, ← balanced.handled found]
  exact balanced.needed found

theorem slotCount_eq (balanced : heap.Balanced slots handles) (address : Address) :
    heap.slotCount address = (heap.stored + slots).count address := by
  unfold slotCount
  cases found : heap.get? address with
  | some object => exact balanced.slotted found
  | none =>
      symm
      rw [Multiset.count_eq_zero]
      intro member
      obtain ⟨object, alive⟩ := balanced.alive
        (Multiset.mem_add.mpr (Or.inl member) : address ∈ heap.stored + slots + handles)
      simp [found] at alive

/-- Changing the counts of one object balances the heap with other multisets
that differ from the earlier ones at this address alone. -/
theorem recount {slots' handles' : Multiset Address} {address : Address}
    {change : Object → Object} (balanced : heap.Balanced slots handles)
    (payload : ∀ object, (change object).payload = object.payload)
    (slotted : ∀ object, heap.get? address = some object →
      (change object).slots = (heap.stored + slots').count address)
    (handled : ∀ object, heap.get? address = some object →
      (change object).handles = (heap.stored + slots' + handles').count address)
    (needed : ∀ object, heap.get? address = some object → 0 < (change object).handles)
    (present : ∃ object, heap.get? address = some object)
    (slotsElsewhere : ∀ other, other ≠ address → slots'.count other = slots.count other)
    (handlesElsewhere : ∀ other, other ≠ address →
      handles'.count other = handles.count other) :
    (heap.modify address change).Balanced slots' handles' := by
  have stored : (heap.modify address change).stored = heap.stored :=
    stored_modify fun object => by rw [payload]
  constructor
  · intro other object found
    rw [get?_modify] at found
    rw [stored]
    split at found
    · rename_i same
      subst same
      obtain ⟨before, old, rfl⟩ := Option.map_eq_some_iff.mp found
      exact slotted before old
    · rename_i different
      rw [balanced.slotted found, Multiset.count_add, Multiset.count_add,
        slotsElsewhere other (Ne.symm different)]
  · intro other object found
    rw [get?_modify] at found
    rw [stored]
    split at found
    · rename_i same
      subst same
      obtain ⟨before, old, rfl⟩ := Option.map_eq_some_iff.mp found
      exact handled before old
    · rename_i different
      simp only [balanced.handled found, Multiset.count_add,
        slotsElsewhere other (Ne.symm different), handlesElsewhere other (Ne.symm different)]
  · intro other object found
    rw [get?_modify] at found
    split at found
    · rename_i same
      subst same
      obtain ⟨before, old, rfl⟩ := Option.map_eq_some_iff.mp found
      exact needed before old
    · exact balanced.needed found
  · intro other member
    rw [get?_modify]
    by_cases same : address = other
    · subst same
      obtain ⟨object, found⟩ := present
      exact ⟨change object, by simp [found]⟩
    · rw [if_neg same]
      apply balanced.alive
      rw [stored, ← Multiset.count_pos] at member
      rw [← Multiset.count_pos]
      simpa only [Multiset.count_add, slotsElsewhere other (Ne.symm same),
        handlesElsewhere other (Ne.symm same)] using member
  · exact balanced.sound

/-- A slot takes over a handle. -/
theorem enterSlot {address : Address}
    (balanced : heap.Balanced slots (address ::ₘ handles)) :
    (heap.enterSlot address).Balanced (address ::ₘ slots) handles := by
  apply balanced.recount
  · intro object
    rfl
  · intro object found
    simp [balanced.slotted found, add_assoc]
  · intro object found
    simp [balanced.handled found]
  · intro object found
    have positive := balanced.needed found
    exact positive
  · exact balanced.alive (by simp)
  · intro other different
    simp [different]
  · intro other different
    simp [different]

/-- A slot that exists is counted, so leaving it keeps the count above zero. -/
theorem leaveSlot {address : Address}
    (balanced : heap.Balanced (address ::ₘ slots) handles) :
    (heap.leaveSlot address).Balanced slots (address ::ₘ handles) := by
  have counted : heap.slotCount address ≠ 0 := by
    rw [balanced.slotCount_eq]
    simp
  simp only [Heap.leaveSlot, if_neg counted]
  apply balanced.recount
  · intro object
    rfl
  · intro object found
    simp [balanced.slotted found]
  · intro object found
    simp [balanced.handled found]
  · intro object found
    have positive := balanced.needed found
    exact positive
  · exact balanced.alive (by simp)
  · intro other different
    simp [different]
  · intro other different
    simp [different]

theorem retain {address : Address} (balanced : heap.Balanced slots handles)
    (member : address ∈ heap.stored + slots + handles) :
    (heap.retain address).Balanced slots (address ::ₘ handles) := by
  apply balanced.recount
  · intro object
    rfl
  · intro object found
    have counted := balanced.slotted found
    exact counted
  · intro object found
    simp [balanced.handled found]
  · intro object found
    exact Nat.succ_pos _
  · exact balanced.alive member
  · intro other different
    rfl
  · intro other different
    simp [different]

theorem setPinned (balanced : heap.Balanced slots handles) (address : Address)
    (pinned : Bool) : (heap.setPinned address pinned).Balanced slots handles := by
  cases found : heap.get? address with
  | none =>
      rw [Heap.setPinned, modify_eq_self found]
      exact balanced
  | some object =>
      apply balanced.recount
      · intro object
        rfl
      · intro object found
        have counted := balanced.slotted found
        exact counted
      · intro object found
        have counted := balanced.handled found
        exact counted
      · intro object found
        have positive := balanced.needed found
        exact positive
      · exact ⟨object, found⟩
      · intro other different
        rfl
      · intro other different
        rfl

/-- Counts do not depend on where new objects are put. -/
theorem rezone {after : Heap} (balanced : heap.Balanced slots handles)
    (cells : after.cells = heap.cells) (sound : after.underflowed = heap.underflowed) :
    after.Balanced slots handles := by
  have same : ∀ address, after.get? address = heap.get? address := by
    intro address
    rw [get?, get?, cells]
  have stored : after.stored = heap.stored := by rw [Heap.stored, Heap.stored, cells]
  constructor
  · intro address object found
    rw [same] at found
    rw [stored]
    exact balanced.slotted found
  · intro address object found
    rw [same] at found
    rw [stored]
    exact balanced.handled found
  · intro address object found
    rw [same] at found
    exact balanced.needed found
  · intro address member
    rw [stored] at member
    rw [same]
    exact balanced.alive member
  · rw [sound]
    exact balanced.sound

/-! ## Reclaiming objects -/

theorem dropHandle {address : Address} {object : Object}
    (balanced : heap.Balanced slots (address ::ₘ handles))
    (found : heap.get? address = some object) (several : 1 < object.handles) :
    (heap.dropHandle address).Balanced slots handles := by
  apply balanced.recount
  · intro object
    rfl
  · intro object found
    have counted := balanced.slotted found
    exact counted
  · intro object found
    simp [balanced.handled found]
  · intro same again
    rw [found, Option.some.injEq] at again
    subst again
    simp only
    omega
  · exact ⟨object, found⟩
  · intro other different
    rfl
  · intro other different
    simp [different]

/-- The slots of an object that is reclaimed outlive it for a moment. -/
theorem erase {address : Address} {object : Object}
    (balanced : heap.Balanced slots (address ::ₘ handles))
    (found : heap.get? address = some object) (last : ¬ 1 < object.handles) :
    (heap.erase address).Balanced (object.payload.children + slots) handles := by
  have stored := stored_erase found
  have slotsTogether : (heap.erase address).stored +
      ((object.payload.children : Multiset Address) + slots) = heap.stored + slots := by
    rw [← add_assoc, stored]
  have unused : address ∉ heap.stored + slots + handles := by
    have counted := balanced.handled found
    rw [← Multiset.count_eq_zero]
    simp only [Multiset.count_add, Multiset.count_cons_self] at counted ⊢
    omega
  constructor
  · intro other before found
    rw [get?_erase] at found
    split at found
    · simp at found
    · rw [slotsTogether, balanced.slotted found]
  · intro other before found
    rw [get?_erase] at found
    split at found
    · simp at found
    · rename_i different
      rw [slotsTogether, balanced.handled found]
      simp [Ne.symm different]
  · intro other before found
    rw [get?_erase] at found
    split at found
    · simp at found
    · exact balanced.needed found
  · intro other member
    rw [slotsTogether] at member
    have different : address ≠ other := by
      rintro rfl
      exact unused member
    rw [get?_erase, if_neg different]
    apply balanced.alive
    rw [Multiset.mem_add] at member ⊢
    exact member.imp_right fun held => Multiset.mem_cons_of_mem held
  · exact balanced.sound

theorem leaveSlots {addresses : List Address}
    (balanced : heap.Balanced (addresses + slots) handles) :
    (heap.leaveSlots addresses).Balanced slots (addresses + handles) := by
  induction addresses generalizing heap handles with
  | nil => simpa [Heap.leaveSlots] using balanced
  | cons address others induction =>
      have first : (heap.leaveSlot address).Balanced (others + slots)
          (address ::ₘ handles) := by
        apply Balanced.leaveSlot
        simpa [← Multiset.cons_coe] using balanced
      have rest := induction first
      simpa [Heap.leaveSlots, ← Multiset.cons_coe, Multiset.add_cons] using rest

theorem enterSlots {addresses : List Address}
    (balanced : heap.Balanced slots (addresses + handles)) :
    (heap.enterSlots addresses).Balanced (addresses + slots) handles := by
  induction addresses generalizing heap slots with
  | nil => simpa [Heap.enterSlots] using balanced
  | cons address others induction =>
      have first : (heap.enterSlot address).Balanced (address ::ₘ slots)
          (others + handles) := by
        apply Balanced.enterSlot
        simpa [← Multiset.cons_coe] using balanced
      have rest := induction first
      simpa [Heap.enterSlots, ← Multiset.cons_coe, Multiset.add_cons] using rest

/-- Giving handles back reclaims what nothing refers to any more, however
deeply the releases cascade. -/
theorem releaseAll {addresses : List Address}
    (balanced : heap.Balanced slots (addresses + handles)) :
    (heap.releaseAll addresses).Balanced slots handles := by
  induction heap, addresses using Heap.releaseAll.induct with
  | case1 heap => simpa [Heap.releaseAll] using balanced
  | case2 heap address others absent induction =>
      have member : address ∈ heap.stored + slots + ((address :: others) + handles) := by
        simp
      obtain ⟨object, found⟩ := balanced.alive member
      simp [absent] at found
  | case3 heap address others object found several induction =>
      rw [releaseAll_of_several found several]
      apply induction
      apply Balanced.dropHandle _ found several
      simpa [← Multiset.cons_coe] using balanced
  | case4 heap address others object found last induction =>
      rw [releaseAll_of_last found last]
      apply induction
      have erased : (heap.erase address).Balanced (object.payload.children + slots)
          (others + handles) := by
        apply Balanced.erase _ found last
        simpa [← Multiset.cons_coe] using balanced
      simpa [← Multiset.coe_add, add_assoc] using erased.leaveSlots

/-- Slots that are destroyed are counted no longer, nor are their handles. -/
theorem dropSlots {addresses : List Address}
    (balanced : heap.Balanced (addresses + slots) handles) :
    (heap.dropSlots addresses).Balanced slots handles :=
  balanced.leaveSlots.releaseAll

/-! ## New objects and new payloads -/

/-- A new object takes over the slots of its payload and has one handle. -/
theorem allocate {payload : Payload}
    (balanced : heap.Balanced (payload.children + slots) handles) (type : StaticType) :
    (heap.allocate type payload).2.Balanced slots (heap.cells.size ::ₘ handles) := by
  have stored := stored_allocate heap type payload
  have slotsTogether : (heap.allocate type payload).2.stored + slots =
      heap.stored + ((payload.children : Multiset Address) + slots) := by
    rw [stored, add_assoc]
  have fresh : heap.cells.size ∉
      heap.stored + ((payload.children : Multiset Address) + slots) + handles := by
    intro member
    exact Nat.lt_irrefl _ (balanced.lt_size member)
  have unslotted : heap.cells.size ∉
      heap.stored + ((payload.children : Multiset Address) + slots) :=
    fun member => fresh (Multiset.mem_add.mpr (Or.inl member))
  constructor
  · intro address object found
    rw [slotsTogether]
    rw [get?_allocate] at found
    split at found
    · rename_i same
      subst same
      cases found
      exact (Multiset.count_eq_zero.mpr unslotted).symm
    · exact balanced.slotted found
  · intro address object found
    rw [slotsTogether]
    rw [get?_allocate] at found
    split at found
    · rename_i same
      subst same
      cases found
      simp only [Multiset.add_cons, Multiset.count_cons_self,
        Multiset.count_eq_zero.mpr fresh]
    · rename_i different
      rw [balanced.handled found, Multiset.add_cons, Multiset.count_cons_of_ne different]
  · intro address object found
    rw [get?_allocate] at found
    split at found
    · cases found
      exact Nat.one_pos
    · exact balanced.needed found
  · intro address member
    rw [slotsTogether, Multiset.add_cons, Multiset.mem_cons] at member
    rw [get?_allocate]
    split
    · exact ⟨_, rfl⟩
    · rename_i different
      exact balanced.alive (member.resolve_left different)
  · exact balanced.sound

/-- A new payload has the slots of the old one, up to an exchange with slots
outside. -/
theorem setPayload {slots' : Multiset Address} {address : Address} {object : Object}
    {payload : Payload} (balanced : heap.Balanced slots handles)
    (found : heap.get? address = some object)
    (exchanged : (payload.children : Multiset Address) + slots' =
      object.payload.children + slots) :
    (heap.setPayload address payload).Balanced slots' handles := by
  have stored := stored_setPayload found payload
  have slotsTogether :
      (heap.setPayload address payload).stored + slots' = heap.stored + slots := by
    apply add_left_cancel (a := (object.payload.children : Multiset Address))
    calc
      (object.payload.children : Multiset Address) +
          ((heap.setPayload address payload).stored + slots') =
        ((heap.setPayload address payload).stored + object.payload.children) + slots' := by
          ac_rfl
      _ = heap.stored + (payload.children + slots') := by rw [stored, add_assoc]
      _ = (object.payload.children : Multiset Address) + (heap.stored + slots) := by
          rw [exchanged]
          ac_rfl
  constructor
  · intro other after reached
    rw [slotsTogether]
    obtain ⟨before, old, rfl⟩ := get?_of_get?_modify reached
    split
    · have counted := balanced.slotted old
      exact counted
    · have counted := balanced.slotted old
      exact counted
  · intro other after reached
    rw [slotsTogether]
    obtain ⟨before, old, rfl⟩ := get?_of_get?_modify reached
    split
    · have counted := balanced.handled old
      exact counted
    · have counted := balanced.handled old
      exact counted
  · intro other after reached
    obtain ⟨before, old, rfl⟩ := get?_of_get?_modify reached
    split
    · have positive := balanced.needed old
      exact positive
    · exact balanced.needed old
  · intro other member
    rw [slotsTogether] at member
    obtain ⟨before, old⟩ := balanced.alive member
    rw [Heap.setPayload, get?_modify, old]
    split
    · exact ⟨_, rfl⟩
    · exact ⟨_, rfl⟩
  · exact balanced.sound

end Balanced

end ScriptEngine.Heap
