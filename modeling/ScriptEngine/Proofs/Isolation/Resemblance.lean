import ScriptEngine.Interpreter.Run
import ScriptEngine.Proofs.Ownership.Acyclicity

/-!
# Heaps that resemble each other

Two heaps resemble each other if they differ at most in how many slots hold an object and
in which objects are pinned.  Nothing is read off a heap that tells them apart, and whatever
is done to both leaves heaps that resemble each other.
-/

namespace ScriptEngine

/-- The same object, counted for other slots or pinned in another way. -/
structure Object.Resembles (object other : Object) : Prop where
  type : object.type = other.type
  payload : object.payload = other.payload
  zone : object.zone = other.zone
  serial : object.serial = other.serial
  handles : object.handles = other.handles

theorem Object.Resembles.refl (object : Object) : object.Resembles object :=
  ⟨rfl, rfl, rfl, rfl, rfl⟩

namespace Heap

structure Resembles (heap other : Heap) : Prop where
  size : heap.cells.size = other.cells.size
  zone : heap.zone = other.zone
  issued : heap.issued = other.issued
  object : ∀ address, Option.Rel Object.Resembles (heap.get? address) (other.get? address)

/-- One result, with heaps that resemble each other. -/
def Coincide {α : Type} (one another : α × Heap) : Prop :=
  one.1 = another.1 ∧ one.2.Resembles another.2

namespace Resembles

variable {heap other : Heap}

theorem refl (heap : Heap) : heap.Resembles heap := by
  refine ⟨rfl, rfl, rfl, fun address => ?_⟩
  cases heap.get? address with
  | none => exact .none
  | some object => exact .some (.refl object)

variable (same : heap.Resembles other)
include same

theorem absent {address : Address} (absent : heap.get? address = none) :
    other.get? address = none := by
  have both := same.object address
  rw [absent] at both
  generalize other.get? address = another at both ⊢
  cases both with
  | none => rfl

theorem present {address : Address} {object : Object} (found : heap.get? address = some object) :
    ∃ counterpart, other.get? address = some counterpart ∧ object.Resembles counterpart := by
  have both := same.object address
  rw [found] at both
  generalize other.get? address = another at both ⊢
  cases both with
  | some alike => exact ⟨_, rfl, alike⟩

/-! ## What is read -/

theorem payload?_eq (address : Address) : heap.payload? address = other.payload? address := by
  unfold Heap.payload?
  have both := same.object address
  generalize heap.get? address = one, other.get? address = another at both ⊢
  cases both with
  | none => rfl
  | some alike => exact congrArg some alike.payload

theorem type_eq (address : Address) : heap.type address = other.type address := by
  unfold Heap.type
  have both := same.object address
  generalize heap.get? address = one, other.get? address = another at both ⊢
  cases both with
  | none => rfl
  | some alike => exact alike.type

theorem scalar?_eq (address : Address) : heap.scalar? address = other.scalar? address := by
  rw [scalar?, scalar?, same.payload?_eq]

theorem kind_eq (address : Address) : heap.kind address = other.kind address := by
  rw [kind, kind, same.payload?_eq]

theorem treeWithin_eq (depth : Nat) (address : Address) :
    heap.treeWithin depth address = other.treeWithin depth address := by
  apply Heap.treeWithin_eq
  exact fun _ => ⟨same.payload?_eq _, same.type_eq _⟩

theorem tree_eq (address : Address) : heap.tree address = other.tree address := by
  rw [tree, tree, same.size, same.treeWithin_eq]

theorem render_eq (nested : Bool) (address : Address) :
    heap.render nested address = other.render nested address := by
  rw [render, render, same.tree_eq]

theorem equalWithin_eq (depth : Nat) (left right : Address) :
    heap.equalWithin depth left right = other.equalWithin depth left right := by
  induction depth generalizing left right with
  | zero => rfl
  | succ depth induction =>
      rw [equalWithin_succ, equalWithin_succ, same.payload?_eq, same.payload?_eq]
      congr 1
      apply agree_congr
      intro payload other _ _ child _ counterpart _
      exact induction child counterpart

theorem equals_eq (left right : Address) : heap.equals left right = other.equals left right := by
  rw [equals, equals, same.size, same.equalWithin_eq]

theorem comparison_eq (operator : ComparisonOperator) (left right : Address) :
    heap.comparison operator left right = other.comparison operator left right := by
  simp only [comparison, ordering?, same.scalar?_eq, same.equals_eq, same.kind_eq]

theorem findEntry?_eq (entries : List (Address × Address)) (key : Address) :
    heap.findEntry? entries key = other.findEntry? entries key := by
  simp only [ findEntry?, same.equals_eq]

theorem element?_eq (vector : Address) (position : Nat) :
    heap.element? vector position = other.element? vector position := by
  rw [element?, element?, same.payload?_eq]

theorem entries_eq (dict : Address) : heap.entries dict = other.entries dict := by
  rw [entries, entries, same.payload?_eq]

theorem entry?_eq (dict : Address) (position : Nat) :
    heap.entry? dict position = other.entry? dict position := by
  rw [ entry?, entry?, same.entries_eq]

theorem spot_eq (container key : Address) : heap.spot container key = other.spot container key := by
  simp only [spot, same.payload?_eq, same.kind_eq, same.findEntry?_eq]

theorem valueAt_eq (container key : Address) :
    heap.valueAt container key = other.valueAt container key := by
  simp only [valueAt, same.spot_eq, same.element?_eq, same.entry?_eq, same.render_eq]

theorem items_eq (source : Address) : Items.of? heap source = Items.of? other source := by
  simp only [Items.of?, same.payload?_eq, same.type_eq]

/-! ## What is done to single objects -/

theorem modify (address : Address) {change change' : Object → Object}
    (alike : ∀ {object counterpart : Object}, object.Resembles counterpart →
      (change object).Resembles (change' counterpart)) :
    (heap.modify address change).Resembles (other.modify address change') := by
  refine ⟨?_, same.zone, same.issued, fun wanted => ?_⟩
  · rw [size_modify, size_modify, same.size]
  · rw [get?_modify, get?_modify]
    have both := same.object wanted
    split
    · generalize heap.get? wanted = one, other.get? wanted = another at both ⊢
      cases both with
      | none => exact .none
      | some known => exact .some (alike known)
    · exact both

/-- A change of one heap alone. -/
theorem modifyLeft (address : Address) {change : Object → Object}
    (alike : ∀ object : Object, (change object).Resembles object) :
    (heap.modify address change).Resembles other := by
  refine ⟨?_, same.zone, same.issued, fun wanted => ?_⟩
  · rw [size_modify, same.size]
  · rw [get?_modify]
    have both := same.object wanted
    split
    · generalize heap.get? wanted = one, other.get? wanted = another at both ⊢
      cases both with
      | none => exact .none
      | @some object counterpart known =>
          have changed := alike object
          exact .some ⟨changed.type.trans known.type, changed.payload.trans known.payload,
            changed.zone.trans known.zone, changed.serial.trans known.serial,
            changed.handles.trans known.handles⟩
    · exact both

theorem retain (address : Address) : (heap.retain address).Resembles (other.retain address) :=
  same.modify address fun alike =>
    ⟨alike.type, alike.payload, alike.zone, alike.serial, congrArg (· + 1) alike.handles⟩

theorem enterSlot (address : Address) :
    (heap.enterSlot address).Resembles (other.enterSlot address) :=
  same.modify address fun alike =>
    ⟨alike.type, alike.payload, alike.zone, alike.serial, alike.handles⟩

omit same in
theorem underflowed (same : heap.Resembles other) (flag flag' : Bool) :
    Resembles { heap with underflowed := flag } { other with underflowed := flag' } :=
  ⟨same.size, same.zone, same.issued, same.object⟩

theorem leaveSlotLeft (address : Address) : (heap.leaveSlot address).Resembles other := by
  unfold Heap.leaveSlot
  split
  · exact (same.underflowed true other.underflowed).modifyLeft address fun _ =>
      ⟨rfl, rfl, rfl, rfl, rfl⟩
  · exact same.modifyLeft address fun _ => ⟨rfl, rfl, rfl, rfl, rfl⟩

theorem setPinnedLeft (address : Address) (pinned : Bool) :
    (heap.setPinned address pinned).Resembles other :=
  same.modifyLeft address fun _ => ⟨rfl, rfl, rfl, rfl, rfl⟩

omit same in
theorem symm (same : heap.Resembles other) : other.Resembles heap := by
  refine ⟨same.size.symm, same.zone.symm, same.issued.symm, fun address => ?_⟩
  have both := same.object address
  generalize heap.get? address = one, other.get? address = another at both ⊢
  cases both with
  | none => exact .none
  | some alike => exact .some ⟨alike.type.symm, alike.payload.symm, alike.zone.symm,
      alike.serial.symm, alike.handles.symm⟩

theorem leaveSlot (address : Address) :
    (heap.leaveSlot address).Resembles (other.leaveSlot address) :=
  ((same.leaveSlotLeft address).symm.leaveSlotLeft address).symm

theorem setPinned (address : Address) (pinned : Bool) :
    (heap.setPinned address pinned).Resembles (other.setPinned address pinned) :=
  ((same.setPinnedLeft address pinned).symm.setPinnedLeft address pinned).symm

theorem setPayload (address : Address) (payload : Payload) :
    (heap.setPayload address payload).Resembles (other.setPayload address payload) :=
  same.modify address fun alike => ⟨alike.type, rfl, alike.zone, alike.serial, alike.handles⟩

theorem dropHandle (address : Address) :
    (heap.dropHandle address).Resembles (other.dropHandle address) :=
  same.modify address fun alike =>
    ⟨alike.type, alike.payload, alike.zone, alike.serial, congrArg (· - 1) alike.handles⟩

theorem erase (address : Address) : (heap.erase address).Resembles (other.erase address) := by
  refine ⟨?_, same.zone, same.issued, fun wanted => ?_⟩
  · simpa [Heap.erase] using same.size
  · rw [get?_erase, get?_erase]
    split
    · exact .none
    · exact same.object wanted

theorem allocate (type : StaticType) (payload : Payload) :
    Coincide (heap.allocate type payload) (other.allocate type payload) := by
  refine ⟨same.size, ?_, same.zone, ?_, fun wanted => ?_⟩
  · simpa [Heap.allocate] using same.size
  · simp only [Heap.allocate, same.zone, same.issued]
  · rw [get?_allocate, get?_allocate, same.size]
    split
    · rw [same.zone, same.issued]
      exact .some (.refl _)
    · exact same.object wanted

/-! ## What is done to several objects -/

theorem enterSlots (addresses : List Address) :
    (heap.enterSlots addresses).Resembles (other.enterSlots addresses) := by
  induction addresses generalizing heap other with
  | nil => exact same
  | cons address others induction => exact induction (same.enterSlot address)

theorem leaveSlots (addresses : List Address) :
    (heap.leaveSlots addresses).Resembles (other.leaveSlots addresses) := by
  induction addresses generalizing heap other with
  | nil => exact same
  | cons address others induction => exact induction (same.leaveSlot address)

theorem leaveSlotsLeft (addresses : List Address) :
    (heap.leaveSlots addresses).Resembles other := by
  induction addresses generalizing heap with
  | nil => exact same
  | cons address others induction => exact induction (same.leaveSlotLeft address)

theorem releaseAll (addresses : List Address) :
    (heap.releaseAll addresses).Resembles (other.releaseAll addresses) := by
  induction heap, addresses using Heap.releaseAll.induct generalizing other with
  | case1 heap => rwa [releaseAll_nil, releaseAll_nil]
  | case2 heap address others absent induction =>
      rw [releaseAll_of_absent absent, releaseAll_of_absent (same.absent absent)]
      exact induction same
  | case3 heap address others object found several induction =>
      obtain ⟨counterpart, found', alike⟩ := same.present found
      rw [releaseAll_of_several found several,
        releaseAll_of_several found' (alike.handles ▸ several)]
      exact induction (same.dropHandle address)
  | case4 heap address others object found last induction =>
      obtain ⟨counterpart, found', alike⟩ := same.present found
      rw [releaseAll_of_last found last, releaseAll_of_last found' (alike.handles ▸ last),
        ← alike.payload]
      exact induction ((same.erase address).leaveSlots _)

theorem release (address : Address) : (heap.release address).Resembles (other.release address) :=
  same.releaseAll [address]

theorem dropSlots (addresses : List Address) :
    (heap.dropSlots addresses).Resembles (other.dropSlots addresses) :=
  (same.leaveSlots addresses).releaseAll addresses

/-! ## What is made -/

theorem newScalar (value : Scalar) : Coincide (heap.newScalar value) (other.newScalar value) :=
  same.allocate value.type (.scalar value)

theorem newDefault (type : StaticType) :
    Coincide (heap.newDefault type) (other.newDefault type) :=
  same.allocate type.mutable _

theorem newVector (element : StaticType) (elements : List Address) :
    Coincide (heap.newVector element elements) (other.newVector element elements) :=
  (same.enterSlots elements).allocate (.vector element) (.vector elements)

end Resembles

mutual

theorem Resembles.build : (tree : Tree) → ∀ {heap other : Heap}, heap.Resembles other →
    Coincide (heap.build tree) (other.build tree)
  | .scalar type value, _, _, same => same.allocate type (.scalar value)
  | .vector type elements, _, _, same => by
      obtain ⟨addresses, built⟩ := Resembles.buildAll elements same
      simp only [Heap.build, addresses]
      exact (built.enterSlots _).allocate type _
  | .dict type entries, _, _, same => by
      obtain ⟨addresses, built⟩ := Resembles.buildEntries entries same
      simp only [Heap.build, addresses]
      exact (built.enterSlots _).allocate type _

theorem Resembles.buildAll : (trees : List Tree) → ∀ {heap other : Heap}, heap.Resembles other →
    Coincide (heap.buildAll trees) (other.buildAll trees)
  | [], _, _, same => ⟨rfl, same⟩
  | tree :: others, _, _, same => by
      obtain ⟨address, built⟩ := Resembles.build tree same
      obtain ⟨addresses, built⟩ := Resembles.buildAll others built
      exact ⟨congrArg₂ List.cons address addresses, built⟩

theorem Resembles.buildEntries : (entries : List (Tree × Tree)) → ∀ {heap other : Heap},
    heap.Resembles other → Coincide (heap.buildEntries entries) (other.buildEntries entries)
  | [], _, _, same => ⟨rfl, same⟩
  | (key, value) :: others, _, _, same => by
      obtain ⟨keys, built⟩ := Resembles.build key same
      obtain ⟨values, built⟩ := Resembles.build value built
      obtain ⟨addresses, built⟩ := Resembles.buildEntries others built
      exact ⟨congrArg₂ List.cons (congrArg₂ Prod.mk keys values) addresses, built⟩

end

namespace Resembles

variable {heap other : Heap} (same : heap.Resembles other)
include same

theorem copy (address : Address) : Coincide (heap.copy address) (other.copy address) := by
  rw [Heap.copy, Heap.copy, same.tree_eq]
  exact Resembles.build _ same

theorem insertPair (entries : List (Address × Address)) (key value : Address) :
    Coincide (heap.insertPair entries key value) (other.insertPair entries key value) := by
  unfold Heap.insertPair
  rw [same.findEntry?_eq]
  cases other.findEntry? entries key with
  | none => exact ⟨rfl, (same.enterSlot key).enterSlot value⟩
  | some position =>
      have entered := same.enterSlot value
      dsimp only
      cases entries[position]? with
      | none => exact ⟨rfl, entered.release key⟩
      | some entry => exact ⟨rfl, (entered.dropSlots [entry.2]).release key⟩

theorem insertPairs (entries pairs : List (Address × Address)) :
    Coincide (heap.insertPairs entries pairs) (other.insertPairs entries pairs) := by
  induction pairs generalizing heap other entries with
  | nil => exact ⟨rfl, same⟩
  | cons pair others induction =>
      obtain ⟨taken, inserted⟩ := same.insertPair entries pair.1 pair.2
      simp only [Heap.insertPairs, taken]
      exact induction inserted _

theorem newDict (key value : StaticType) (pairs : List (Address × Address)) :
    Coincide (heap.newDict key value pairs) (other.newDict key value pairs) := by
  obtain ⟨entries, inserted⟩ := same.insertPairs [] pairs
  simp only [Heap.newDict, entries]
  exact inserted.allocate _ _

theorem createEntry (dict key : Address) (entries : List (Address × Address)) :
    (heap.createEntry dict key entries).Resembles (other.createEntry dict key entries) := by
  obtain ⟨value, made⟩ := same.newDefault ((other.type dict).parameter 1)
  simp only [Heap.createEntry, same.type_eq, value]
  exact ((made.enterSlot key).enterSlot _).setPayload dict _

/-! ## What is walked to -/

theorem readElement (container key : Address) :
    Coincide (heap.readElement container key) (other.readElement container key) := by
  unfold Heap.readElement
  rw [same.valueAt_eq]
  cases other.valueAt container key with
  | error cause => exact ⟨rfl, same.release key⟩
  | ok value => exact ⟨rfl, (same.retain value).release key⟩

theorem locate (container key : Address) (access : Access) :
    Coincide (heap.locate container key access) (other.locate container key access) := by
  unfold Heap.locate
  rw [same.spot_eq, same.render_eq, same.entries_eq]
  cases other.spot container key with
  | error cause => exact ⟨rfl, same.release key⟩
  | ok spot =>
      cases spot with
      | element position => exact ⟨rfl, (same.release key).retain container⟩
      | entry position => exact ⟨rfl, (same.release key).retain container⟩
      | absent =>
          cases access with
          | read => exact ⟨rfl, same.release key⟩
          | write => exact ⟨rfl, (same.createEntry container key _).retain container⟩

theorem next? (items : Items) : Coincide (items.next? heap) (items.next? other) := by
  cases items with
  | integers next stop =>
      simp only [Items.next?]
      split
      · obtain ⟨value, made⟩ := same.newScalar (.int next)
        rw [value]
        exact ⟨rfl, made⟩
      · exact ⟨rfl, same⟩
  | elements source position =>
      simp only [Items.next?, same.element?_eq]
      cases other.element? source position with
      | none => exact ⟨rfl, same⟩
      | some element =>
          obtain ⟨value, made⟩ := same.copy element
          simp only [value]
          exact ⟨rfl, made⟩
  | entries source position pairType =>
      simp only [Items.next?, same.entry?_eq]
      cases other.entry? source position with
      | none => exact ⟨rfl, same⟩
      | some entry =>
          obtain ⟨key, made⟩ := same.copy entry.1
          obtain ⟨value, made⟩ := made.copy entry.2
          simp only [key, value]
          obtain ⟨pair, made⟩ := made.newVector pairType [(other.copy entry.1).1,
            ((other.copy entry.1).2.copy entry.2).1]
          simp only [pair]
          exact ⟨rfl, made⟩

end Resembles

end Heap

end ScriptEngine
