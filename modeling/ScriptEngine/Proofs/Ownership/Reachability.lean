import ScriptEngine.Proofs.Ownership.Tidiness

/-!
# Reachability

In a balanced and separated ledger the living objects are those that slots lead
to from the bindings and handles: each object is referred to, and ranks end
every way back along the slots that hold it.
-/

namespace ScriptEngine

namespace Heap

/-- The objects that slots lead to from given objects. -/
inductive Reaches (heap : Heap) (roots : Multiset Address) : Address → Prop where
  | root {address : Address} : address ∈ roots → Reaches heap roots address
  | slot {holder child : Address} :
      Reaches heap roots holder → heap.Holds holder child → Reaches heap roots child

variable {heap after : Heap} {roots slots handles kept lent : Multiset Address}

theorem Reaches.mono {more : Multiset Address} {address : Address}
    (reaches : heap.Reaches roots address)
    (included : ∀ {root}, root ∈ roots → root ∈ more) : heap.Reaches more address := by
  induction reaches with
  | root member => exact .root (included member)
  | slot _ holds induction => exact .slot induction holds

/-- One slot on the way is enough. -/
theorem Within.reaches {address : Address} (within : heap.Within address roots) :
    ∃ root ∈ roots, heap.Reaches {root} address := by
  rcases within with root | ⟨container, member, object, found, child⟩
  · exact ⟨address, root, .root (Multiset.mem_singleton_self address)⟩
  · refine ⟨container, member, .slot (.root (Multiset.mem_singleton_self container)) ?_⟩
    exact ⟨object.payload, payload?_of_get? found, child⟩

theorem Reaches.exists_root {address : Address} (reaches : heap.Reaches roots address) :
    ∃ root, root ∈ roots := by
  induction reaches with
  | root member => exact ⟨_, member⟩
  | slot _ _ induction => exact induction

theorem Reaches.trans {root middle address : Address} (first : heap.Reaches {root} middle)
    (second : heap.Reaches {middle} address) : heap.Reaches {root} address := by
  induction second with
  | root member =>
      rw [Multiset.mem_singleton.mp member]
      exact first
  | slot _ holds induction => exact .slot induction holds

/-- Reaching carries over to a heap in which nothing that is reached has
another payload. -/
theorem Reaches.transport {address : Address} (reaches : heap.Reaches roots address)
    (same : ∀ {other}, heap.Reaches roots other → after.payload? other = heap.payload? other) :
    after.Reaches roots address := by
  induction reaches with
  | root member => exact .root member
  | slot reaches holds induction =>
      obtain ⟨payload, found, member⟩ := holds
      rw [← same reaches] at found
      exact .slot induction ⟨payload, found, member⟩

theorem Reaches.transport_back {address : Address} (reaches : after.Reaches roots address)
    (same : ∀ {other}, heap.Reaches roots other → after.payload? other = heap.payload? other) :
    heap.Reaches roots address := by
  induction reaches with
  | root member => exact .root member
  | slot reaches holds induction =>
      obtain ⟨payload, found, member⟩ := holds
      rw [same induction] at found
      exact .slot induction ⟨payload, found, member⟩

/-- Nothing is reached by way of objects that are no containers. -/
theorem Reaches.of_plain {plain : Multiset Address} {address : Address}
    (reaches : heap.Reaches (roots + plain) address) (simple : heap.Plain plain) :
    heap.Reaches roots address ∨ address ∈ plain := by
  induction reaches with
  | root member => exact (Multiset.mem_add.mp member).imp .root id
  | slot reaches holds induction =>
      rcases induction with reached | member
      · exact Or.inl (.slot reached holds)
      · exact absurd holds.isContainer (simple _ member).2

theorem Balanced.alive_of_reaches (balanced : heap.Balanced slots handles) {address : Address}
    (reaches : heap.Reaches (slots + handles) address) :
    ∃ object, heap.get? address = some object := by
  apply balanced.alive
  cases reaches with
  | root member =>
      rw [add_assoc]
      exact Multiset.mem_add.mpr (Or.inr member)
  | slot _ holds =>
      have stored := mem_stored_iff_holds.mpr ⟨_, holds⟩
      simp [stored]

/-- Every object has a root, since ranks grow along the way to those that hold
it. -/
theorem Balanced.reaches_of_alive (balanced : heap.Balanced slots handles)
    (separated : heap.Separated kept lent) {address : Address} {object : Object}
    (alive : heap.get? address = some object) : heap.Reaches (slots + handles) address := by
  obtain ⟨owner, rank, certified⟩ := separated
  obtain ⟨bound, bounded⟩ := exists_rank_bound rank heap.cells.size
  have rootOrHeld : ∀ {address object}, heap.get? address = some object →
      heap.Reaches (slots + handles) address ∨ ∃ holder, heap.Holds holder address := by
    intro address object alive
    have referred := balanced.mem_of_get? alive
    rw [add_assoc, Multiset.mem_add] at referred
    rcases referred with stored | rooted
    · exact Or.inr (mem_stored_iff_holds.mp stored)
    · exact Or.inl (.root rooted)
  have containers : ∀ count address, heap.IsContainer address → bound - rank address ≤ count →
      heap.Reaches (slots + handles) address := by
    intro count
    induction count with
    | zero =>
        intro address container close
        have below := bounded address container.lt_size
        omega
    | succ count induction =>
        intro address container close
        have ⟨payload, found, _⟩ := container
        obtain ⟨object, alive, _⟩ := payload?_eq_some_iff.mp found
        rcases rootOrHeld alive with reached | ⟨holder, holds⟩
        · exact reached
        · have falls := certified.descends holds container
          have below := bounded holder holds.isContainer.lt_size
          exact .slot (induction holder holds.isContainer (by omega)) holds
  rcases rootOrHeld alive with reached | ⟨holder, holds⟩
  · exact reached
  · exact .slot (containers _ holder holds.isContainer le_rfl) holds

/-! ## Trees -/

theorem treeWithin_succ (heap : Heap) (depth : Nat) (address : Address) :
    heap.treeWithin (depth + 1) address =
      match heap.payload? address with
      | none => default
      | some (.scalar value) => .scalar (heap.type address) value
      | some (.vector elements) =>
          .vector (heap.type address) (elements.map (heap.treeWithin depth))
      | some (.dict entries) =>
          .dict (heap.type address) (entries.map fun entry =>
            (heap.treeWithin depth entry.1, heap.treeWithin depth entry.2)) := by
  rw [treeWithin, payload?, type]
  cases heap.get? address with
  | none => rfl
  | some object =>
      obtain ⟨type, payload, _⟩ := object
      cases payload with
      | scalar value => rfl
      | vector elements => rfl
      | dict entries => rfl

/-- A tree depends on what is reached from its root. -/
theorem treeWithin_eq (depth : Nat) {root : Address}
    (same : ∀ {address}, heap.Reaches {root} address →
      after.payload? address = heap.payload? address ∧ after.type address = heap.type address) :
    after.treeWithin depth root = heap.treeWithin depth root := by
  induction depth generalizing root with
  | zero => rfl
  | succ depth induction =>
      obtain ⟨payload, type⟩ := same (.root (Multiset.mem_singleton_self root))
      have child : ∀ {child}, heap.Holds root child →
          after.treeWithin depth child = heap.treeWithin depth child := by
        intro child holds
        apply induction
        intro address reaches
        apply same
        exact Reaches.trans (.slot (.root (Multiset.mem_singleton_self root)) holds) reaches
      rw [treeWithin_succ, treeWithin_succ, payload, type]
      cases found : heap.payload? root with
      | none => rfl
      | some content =>
          cases content with
          | scalar value => rfl
          | vector elements =>
              simp only [Tree.vector.injEq, true_and]
              apply List.map_congr_left
              intro element member
              exact child ⟨_, found, member⟩
          | dict entries =>
              simp only [Tree.dict.injEq, true_and]
              apply List.map_congr_left
              intro entry member
              have inside : ∀ slot ∈ [entry.1, entry.2], heap.Holds root slot := by
                intro slot chosen
                exact ⟨_, found, List.mem_flatMap.mpr ⟨entry, member, chosen⟩⟩
              rw [child (inside entry.1 (by simp)), child (inside entry.2 (by simp))]

/-! ## Counting the living -/

/-- The addresses of the living objects, in order. -/
def living (heap : Heap) : List Address :=
  (List.range heap.cells.size).filter fun address => (heap.get? address).isSome

theorem mem_living {address : Address} :
    address ∈ heap.living ↔ ∃ object, heap.get? address = some object := by
  rw [living, List.mem_filter, List.mem_range, Option.isSome_iff_exists]
  constructor
  · exact fun found => found.2
  · rintro ⟨object, found⟩
    exact ⟨lt_size_of_get?_eq_some found, object, found⟩

theorem nodup_living (heap : Heap) : heap.living.Nodup :=
  List.nodup_range.filter _

theorem toList_cells (heap : Heap) :
    heap.cells.toList = (List.range heap.cells.size).map heap.get? := by
  apply List.ext_getElem
  · simp
  · intro position inside _
    have bound : position < heap.cells.size := by simpa using inside
    simp [get?, Array.getElem?_eq_getElem bound]

theorem Tidy.liveCount_eq {results : Multiset Address} (tidy : heap.Tidy results) :
    heap.liveCount = heap.living.length := by
  have counted : heap.liveCount = heap.cells.toList.countP (·.isSome) := by
    rw [liveCount, count, ← Array.countP_toList]
    apply List.countP_congr
    intro cell member
    rw [toList_cells, List.mem_map] at member
    obtain ⟨address, _, found⟩ := member
    cases cell with
    | none => simp
    | some object => simp [tidy.zone found]
  rw [counted, toList_cells, List.countP_map, living, List.countP_eq_length_filter]
  rfl

theorem Tidy.isLive_iff {results : Multiset Address} (tidy : heap.Tidy results) (serial : Nat) :
    heap.isLive serial = true ↔
      ∃ address object, heap.get? address = some object ∧ object.serial = serial := by
  rw [isLive, bne_iff_ne, count, ← Array.countP_toList, ← Nat.pos_iff_ne_zero, List.countP_pos_iff]
  constructor
  · rintro ⟨cell, member, counted⟩
    rw [toList_cells, List.mem_map] at member
    obtain ⟨address, _, rfl⟩ := member
    cases found : heap.get? address with
    | none => simp [found] at counted
    | some object =>
        simp only [found, Bool.and_eq_true, beq_iff_eq] at counted
        exact ⟨address, object, found, counted.2⟩
  · rintro ⟨address, object, found, same⟩
    refine ⟨some object, ?_, by simp [tidy.zone found, same]⟩
    rw [toList_cells, List.mem_map]
    exact ⟨address, List.mem_range.mpr (lt_size_of_get?_eq_some found), found⟩

/-- There is nothing to sweep where every object has a handle. -/
theorem Balanced.sweep_eq (balanced : heap.Balanced slots handles) : heap.sweep = (0, heap) := by
  have kept : ∀ {cell : Option Object}, cell ∈ heap.cells.toList →
      ∀ object, cell = some object → (object.handles == 0) = false := by
    intro cell member object same
    rw [toList_cells, List.mem_map] at member
    obtain ⟨address, _, found⟩ := member
    have needed := balanced.needed (found.trans same)
    rw [beq_eq_false_iff_ne]
    exact Nat.ne_of_gt needed
  have none : heap.count (·.handles == 0) = 0 := by
    rw [count, ← Array.countP_toList, List.countP_eq_zero]
    intro cell member
    cases cell with
    | none => simp
    | some object => simp [kept member object rfl]
  have same : heap.cells.map
      (Option.filter fun object => !(object.zone == heap.zone && object.handles == 0)) =
        heap.cells := by
    rw [← Array.toList_inj, Array.toList_map]
    conv_rhs => rw [← List.map_id heap.cells.toList]
    apply List.map_congr_left
    intro cell member
    cases cell with
    | none => rfl
    | some object => simp [Option.filter, kept member object rfl]
  simp only [sweep, none, same]

end Heap

/-- What is lent leads to all that a walk comes across. -/
theorem Ledger.Shows.reaches {ledger : Ledger} {address : Address}
    (shown : ledger.Shows address) : ∃ root ∈ ledger.lent, ledger.heap.Reaches {root} address := by
  rcases shown with bound | shared | ⟨container, shared, object, found, offered⟩
  · exact ⟨address, mem_lent_of_bound bound, .root (Multiset.mem_singleton_self address)⟩
  · exact ⟨address, mem_lent_of_shared shared, .root (Multiset.mem_singleton_self address)⟩
  · refine ⟨container, mem_lent_of_shared shared, ?_⟩
    exact .slot (.root (Multiset.mem_singleton_self container)) ⟨object.payload,
      Heap.payload?_of_get? found, Payload.mem_children_of_mem_offers offered⟩

end ScriptEngine
