import ScriptEngine.Heap.Basic

/-!
# Releasing handles

An object is reclaimed when its last handle is given back. Its slots then
give theirs back in turn, so a release works through a list of handles until
none is left.
-/

namespace ScriptEngine.Heap

/-- What a cell adds to the work that releases can still cause. -/
def cellWeight : Option Object → Nat
  | some object => 1 + object.payload.children.length
  | none => 0

def cellsWeight : List (Option Object) → Nat
  | [] => 0
  | cell :: others => cellWeight cell + cellsWeight others

/-- A bound on the number of handles that releases can still give back. -/
def weight (heap : Heap) : Nat :=
  cellsWeight heap.cells.toList

/-- Empty the cell at an address. -/
def erase (heap : Heap) (address : Address) : Heap :=
  { heap with cells := heap.cells.setIfInBounds address none }

theorem cellsWeight_set {cells : List (Option Object)} {position : Nat}
    {old : Option Object} (found : cells[position]? = some old) (new : Option Object) :
    cellsWeight (cells.set position new) + cellWeight old =
      cellsWeight cells + cellWeight new := by
  induction cells generalizing position with
  | nil => simp at found
  | cons first others induction =>
      cases position with
      | zero =>
          simp only [List.getElem?_cons_zero, Option.some.injEq] at found
          subst found
          simp only [List.set_cons_zero, cellsWeight]
          omega
      | succ position =>
          simp only [List.getElem?_cons_succ] at found
          have rest := induction found
          simp only [List.set_cons_succ, cellsWeight]
          omega

/-- Changing one cell moves the weight by the difference of the two cells. -/
theorem weight_set {heap : Heap} {address : Address} {object : Object}
    (found : heap.get? address = some object) (cell : Option Object) :
    weight { heap with cells := heap.cells.setIfInBounds address cell } +
        cellWeight (some object) =
      weight heap + cellWeight cell := by
  have stored : heap.cells.toList[address]? = some (some object) := by
    have joined : heap.cells[address]?.join = some object := found
    rw [Array.getElem?_toList]
    exact Option.join_eq_some_iff.mp joined
  simpa [weight, Array.toList_setIfInBounds] using cellsWeight_set stored cell

theorem weight_erase {heap : Heap} {address : Address} {object : Object}
    (found : heap.get? address = some object) :
    weight (heap.erase address) + cellWeight (some object) = weight heap := by
  simpa [erase, cellWeight] using weight_set found none

/-- Changing an object without changing the length of its children keeps the
weight. -/
theorem weight_modify {heap : Heap} {address : Address} {change : Object → Object}
    (keeps : ∀ object, (change object).payload.children.length =
      object.payload.children.length) :
    weight (heap.modify address change) = weight heap := by
  have changed : ∀ cell : Option Object, cellWeight (cell.map change) = cellWeight cell := by
    intro cell
    cases cell with
    | none => rfl
    | some object => simp [cellWeight, keeps]
  have modified : ∀ (cells : List (Option Object)) (position : Nat),
      cellsWeight (cells.modify position (Option.map change)) = cellsWeight cells := by
    intro cells
    induction cells with
    | nil => simp
    | cons first others induction =>
        intro position
        cases position with
        | zero => simp [cellsWeight, changed]
        | succ position => simp [cellsWeight, induction]
  simpa [weight, modify] using modified heap.cells.toList address

theorem weight_leaveSlots (heap : Heap) (addresses : List Address) :
    weight (heap.leaveSlots addresses) = weight heap := by
  induction addresses generalizing heap with
  | nil => rfl
  | cons address others induction =>
      have step : weight (heap.leaveSlot address) = weight heap := by
        simp only [leaveSlot]
        split
        · exact weight_modify fun _ => rfl
        · exact weight_modify fun _ => rfl
      simpa [leaveSlots, step] using induction (heap.leaveSlot address)

/-- One handle less, where others remain. -/
def dropHandle (heap : Heap) (address : Address) : Heap :=
  heap.modify address fun object => { object with handles := object.handles - 1 }

theorem weight_dropHandle (heap : Heap) (address : Address) :
    weight (heap.dropHandle address) = weight heap :=
  weight_modify fun _ => rfl

/-- Give back every handle of a list. -/
def releaseAll (heap : Heap) : List Address → Heap
  | [] => heap
  | address :: others =>
      match _found : heap.get? address with
      | none => releaseAll heap others
      | some object =>
          if 1 < object.handles then
            releaseAll (heap.dropHandle address) others
          else
            releaseAll ((heap.erase address).leaveSlots object.payload.children)
              (object.payload.children ++ others)
termination_by addresses => weight heap + addresses.length
decreasing_by
  · simp
  · rw [weight_dropHandle]
    simp
  · have moved := weight_erase _found
    rw [weight_leaveSlots]
    simp only [cellWeight, List.length_append, List.length_cons] at *
    omega

@[simp] theorem releaseAll_nil (heap : Heap) : heap.releaseAll [] = heap := by
  rw [releaseAll]

theorem releaseAll_of_absent {heap : Heap} {address : Address}
    (absent : heap.get? address = none) (others : List Address) :
    heap.releaseAll (address :: others) = heap.releaseAll others := by
  rw [releaseAll]
  split
  · rfl
  · simp_all

theorem releaseAll_of_several {heap : Heap} {address : Address} {object : Object}
    (found : heap.get? address = some object) (several : 1 < object.handles)
    (others : List Address) :
    heap.releaseAll (address :: others) = (heap.dropHandle address).releaseAll others := by
  rw [releaseAll]
  split
  · simp_all
  · rename_i again
    rw [found, Option.some.injEq] at again
    subst again
    rw [if_pos several]

theorem releaseAll_of_last {heap : Heap} {address : Address} {object : Object}
    (found : heap.get? address = some object) (last : ¬ 1 < object.handles)
    (others : List Address) :
    heap.releaseAll (address :: others) =
      ((heap.erase address).leaveSlots object.payload.children).releaseAll
        (object.payload.children ++ others) := by
  rw [releaseAll]
  split
  · simp_all
  · rename_i again
    rw [found, Option.some.injEq] at again
    subst again
    rw [if_neg last]

/-- What is kept when a handle is dropped, a cell emptied and a slot left is kept by
releases. -/
theorem releaseAll_induction {motive : Heap → Prop}
    (drop : ∀ {heap : Heap} (address : Address), motive heap → motive (heap.dropHandle address))
    (erase : ∀ {heap : Heap} {address : Address} {object : Object},
      heap.get? address = some object → motive heap → motive (heap.erase address))
    (leave : ∀ {heap : Heap} (address : Address), motive heap → motive (heap.leaveSlot address))
    {heap : Heap} (kept : motive heap) (addresses : List Address) :
    motive (heap.releaseAll addresses) := by
  induction heap, addresses using releaseAll.induct with
  | case1 heap => rwa [releaseAll_nil]
  | case2 heap address others absent induction =>
      rw [releaseAll_of_absent absent]
      exact induction kept
  | case3 heap address others object found several induction =>
      rw [releaseAll_of_several found several]
      exact induction (drop address kept)
  | case4 heap address others object found last induction =>
      rw [releaseAll_of_last found last]
      apply induction
      -- The slots of the object that is gone are left one after the other.
      exact List.foldlRecOn object.payload.children leaveSlot (erase found kept)
        fun _ kept child _ => leave child kept

/-- Handles can be given back in one go or one list after another. -/
theorem releaseAll_append (heap : Heap) (first second : List Address) :
    heap.releaseAll (first ++ second) = (heap.releaseAll first).releaseAll second := by
  induction heap, first using releaseAll.induct with
  | case1 heap => simp
  | case2 heap address others absent induction =>
      rw [List.cons_append, releaseAll_of_absent absent, releaseAll_of_absent absent, induction]
  | case3 heap address others object found several induction =>
      rw [List.cons_append, releaseAll_of_several found several,
        releaseAll_of_several found several, induction]
  | case4 heap address others object found last induction =>
      rw [List.cons_append, releaseAll_of_last found last, releaseAll_of_last found last,
        ← List.append_assoc, induction]

/-- Give back one handle. -/
def release (heap : Heap) (address : Address) : Heap :=
  heap.releaseAll [address]

/-- Destroy slots: each leaves its object and gives its handle back. -/
def dropSlots (heap : Heap) (addresses : List Address) : Heap :=
  (heap.leaveSlots addresses).releaseAll addresses

end ScriptEngine.Heap
