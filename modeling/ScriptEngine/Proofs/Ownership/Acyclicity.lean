import ScriptEngine.Proofs.Ownership.Reachability
import ScriptEngine.Heap.Equality
import Mathlib.Data.Finset.Card
import Mathlib.Logic.Relation

/-!
# Acyclic heaps

In a separated heap ranks fall along the slots that hold containers, so that
no object holds itself by any way.  A walk that follows slots then meets no object
twice, and ends within as many steps as the heap has cells; reading a tree and
comparing two objects do not depend on the depths they are cut off at.
-/

namespace ScriptEngine

namespace Heap

def Acyclic (heap : Heap) : Prop :=
  ∀ address, ¬ Relation.TransGen heap.Holds address address

/-- No object that slots lead to from a root holds itself. -/
def AcyclicFrom (heap : Heap) (root : Address) : Prop :=
  ∀ address, heap.Reaches {root} address → ¬ Relation.TransGen heap.Holds address address

/-- Every walk along slots from an object ends after so many steps. -/
def EndsWithin (heap : Heap) : Nat → Address → Prop
  | 0, address => ∀ child, ¬ heap.Holds address child
  | steps + 1, address => ∀ child, heap.Holds address child → heap.EndsWithin steps child

variable {heap : Heap} {kept lent slots handles : Multiset Address}

theorem Reaches.child {holder child address : Address} (holds : heap.Holds holder child)
    (reaches : heap.Reaches {child} address) : heap.Reaches {holder} address :=
  Reaches.trans (.slot (.root (Multiset.mem_singleton_self holder)) holds) reaches

theorem AcyclicFrom.child {holder child : Address} (acyclic : heap.AcyclicFrom holder)
    (holds : heap.Holds holder child) : heap.AcyclicFrom child :=
  fun _ reaches => acyclic _ (reaches.child holds)

theorem Acyclic.from_root (acyclic : heap.Acyclic) (root : Address) : heap.AcyclicFrom root :=
  fun address _ => acyclic address

theorem Certified.descends_all {owner : Address → Option Address} {rank : Address → Nat}
    (certified : Certified owner rank heap kept lent) {holder descendant : Address}
    (path : Relation.TransGen heap.Holds holder descendant)
    (container : heap.IsContainer descendant) : rank descendant < rank holder := by
  induction path with
  | single holds => exact certified.descends holds container
  | tail _ holds induction =>
      exact (certified.descends holds container).trans (induction holds.isContainer)

theorem Separated.acyclic (separated : heap.Separated kept lent) : heap.Acyclic := by
  intro address cycle
  obtain ⟨owner, rank, certified⟩ := separated
  obtain ⟨child, holds, _⟩ := Relation.TransGen.head'_iff.mp cycle
  exact Nat.lt_irrefl _ (certified.descends_all cycle holds.isContainer)

/-! ## Walks end -/

/-- Those that hold an object by some way are not as many as the heap has cells,
if it holds something itself. -/
theorem AcyclicFrom.card_ancestors {address child : Address} (acyclic : heap.AcyclicFrom address)
    {ancestors : Finset Address}
    (above : ∀ ancestor ∈ ancestors, Relation.TransGen heap.Holds ancestor address)
    (holds : heap.Holds address child) :
    (insert address ancestors).card = ancestors.card + 1 ∧
      ancestors.card < heap.cells.size := by
  have grown : (insert address ancestors).card = ancestors.card + 1 := by
    apply Finset.card_insert_of_notMem
    intro member
    exact acyclic address (.root (Multiset.mem_singleton_self address)) (above address member)
  have inside : insert address ancestors ⊆ Finset.range heap.cells.size := by
    intro ancestor member
    rw [Finset.mem_range]
    rcases Finset.mem_insert.mp member with rfl | member
    · exact holds.isContainer.lt_size
    · obtain ⟨next, first, _⟩ := Relation.TransGen.head'_iff.mp (above ancestor member)
      exact first.isContainer.lt_size
  have small := Finset.card_le_card inside
  rw [Finset.card_range] at small
  exact ⟨grown, by omega⟩

/-- A walk meets no object twice, so that it ends when all cells have been met. -/
theorem AcyclicFrom.endsWithin_of_ancestors {steps : Nat} {address : Address}
    (acyclic : heap.AcyclicFrom address) (ancestors : Finset Address)
    (above : ∀ ancestor ∈ ancestors, Relation.TransGen heap.Holds ancestor address)
    (left : ancestors.card + steps = heap.cells.size) : heap.EndsWithin steps address := by
  induction steps generalizing address ancestors with
  | zero =>
      intro child holds
      obtain ⟨_, small⟩ := acyclic.card_ancestors above holds
      omega
  | succ steps induction =>
      intro child holds
      obtain ⟨grown, _⟩ := acyclic.card_ancestors above holds
      apply induction (acyclic.child holds) (insert address ancestors) _ (by omega)
      intro ancestor member
      rcases Finset.mem_insert.mp member with rfl | member
      · exact .single holds
      · exact .tail (above ancestor member) holds

theorem AcyclicFrom.endsWithin {address : Address} (acyclic : heap.AcyclicFrom address) :
    heap.EndsWithin heap.cells.size address :=
  acyclic.endsWithin_of_ancestors ∅ (by simp) (by simp)

theorem Acyclic.endsWithin (acyclic : heap.Acyclic) (address : Address) :
    heap.EndsWithin heap.cells.size address :=
  (acyclic.from_root address).endsWithin

theorem EndsWithin.accessible {steps : Nat} {address : Address}
    (ends : heap.EndsWithin steps address) :
    Acc (fun child holder => heap.Holds holder child) address := by
  induction steps generalizing address with
  | zero => exact .intro _ fun child holds => absurd holds (ends child)
  | succ steps induction => exact .intro _ fun child holds => induction (ends child holds)

theorem EndsWithin.child {steps : Nat} {holder child : Address}
    (ends : heap.EndsWithin steps holder) (holds : heap.Holds holder child) :
    ∃ fewer, steps = fewer + 1 ∧ heap.EndsWithin fewer child := by
  cases steps with
  | zero => exact absurd holds (ends child)
  | succ fewer => exact ⟨fewer, rfl, ends child holds⟩

theorem EndsWithin.mono {steps more : Nat} {address : Address} (ends : heap.EndsWithin steps address)
    (fewer : steps ≤ more) : heap.EndsWithin more address := by
  induction steps generalizing more address with
  | zero =>
      cases more with
      | zero => exact ends
      | succ more => exact fun child holds => absurd holds (ends child)
  | succ steps induction =>
      cases more with
      | zero => omega
      | succ more => exact fun child holds => induction (ends child holds) (Nat.le_of_succ_le_succ fewer)

/-! ## Depths that cut nothing off -/

/-- Whether payloads agree position by position, given how objects compare. -/
def agree (equal : Address → Address → Bool) : Option Payload → Option Payload → Bool
  | some (.scalar left), some (.scalar right) => left.equals right
  | some (.vector left), some (.vector right) =>
      left.length == right.length && (left.zip right).all fun pair => equal pair.1 pair.2
  | some (.dict left), some (.dict right) =>
      left.length == right.length &&
        (left.zip right).all fun pair => equal pair.1.1 pair.2.1 && equal pair.1.2 pair.2.2
  | _, _ => false

theorem equalWithin_succ (heap : Heap) (depth : Nat) (left right : Address) :
    heap.equalWithin (depth + 1) left right =
      (left == right ||
        agree (heap.equalWithin depth) (heap.payload? left) (heap.payload? right)) := rfl

/-- Only children are compared with each other. -/
theorem agree_congr {equal equal' : Address → Address → Bool} {left right : Option Payload}
    (same : ∀ payload other, left = some payload → right = some other →
      ∀ child ∈ payload.children, ∀ counterpart ∈ other.children,
        equal child counterpart = equal' child counterpart) :
    agree equal left right = agree equal' left right := by
  cases left with
  | none => rfl
  | some payload =>
      cases right with
      | none => cases payload <;> rfl
      | some other =>
          cases payload with
          | scalar value => cases other <;> rfl
          | vector elements =>
              cases other with
              | scalar value => rfl
              | dict entries => rfl
              | vector others =>
                  simp only [agree]
                  congr 1
                  rw [Bool.eq_iff_iff, List.all_eq_true, List.all_eq_true]
                  apply forall₂_congr
                  intro pair member
                  obtain ⟨inside, inside'⟩ := List.of_mem_zip member
                  rw [same _ _ rfl rfl _ inside _ inside']
          | dict entries =>
              cases other with
              | scalar value => rfl
              | vector elements => rfl
              | dict others =>
                  have slots : ∀ {entries : List (Address × Address)} {entry}, entry ∈ entries →
                      entry.1 ∈ (Payload.dict entries).children ∧
                        entry.2 ∈ (Payload.dict entries).children := by
                    intro entries entry member
                    exact ⟨List.mem_flatMap.mpr ⟨entry, member, by simp⟩,
                      List.mem_flatMap.mpr ⟨entry, member, by simp⟩⟩
                  simp only [agree]
                  congr 1
                  rw [Bool.eq_iff_iff, List.all_eq_true, List.all_eq_true]
                  apply forall₂_congr
                  intro pair member
                  obtain ⟨inside, inside'⟩ := List.of_mem_zip member
                  rw [same _ _ rfl rfl _ (slots inside).1 _ (slots inside').1,
                    same _ _ rfl rfl _ (slots inside).2 _ (slots inside').2]

/-- Trees are equal if cut off at depths that no walk from the root gets to. -/
theorem EndsWithin.treeWithin_eq {steps first second : Nat} {address : Address}
    (ends : heap.EndsWithin steps address) (deep : steps < first) (deep' : steps < second) :
    heap.treeWithin first address = heap.treeWithin second address := by
  induction first generalizing steps second address with
  | zero => omega
  | succ first induction =>
      obtain ⟨second, rfl⟩ := Nat.exists_eq_add_of_lt (Nat.zero_lt_of_lt deep')
      rw [Nat.zero_add] at deep' ⊢
      have inside : ∀ child, heap.Holds address child →
          heap.treeWithin first child = heap.treeWithin second child := by
        intro child holds
        obtain ⟨fewer, rfl, endsBelow⟩ := ends.child holds
        exact induction endsBelow (by omega) (by omega)
      rw [treeWithin_succ, treeWithin_succ]
      cases found : heap.payload? address with
      | none => rfl
      | some payload =>
          cases payload with
          | scalar value => rfl
          | vector elements =>
              simp only [Tree.vector.injEq, true_and]
              exact List.map_congr_left fun element member => inside element ⟨_, found, member⟩
          | dict entries =>
              simp only [Tree.dict.injEq, true_and]
              apply List.map_congr_left
              intro entry member
              have slots : ∀ slot ∈ [entry.1, entry.2], heap.Holds address slot := by
                intro slot chosen
                exact ⟨_, found, List.mem_flatMap.mpr ⟨entry, member, chosen⟩⟩
              rw [inside entry.1 (slots _ (by simp)), inside entry.2 (slots _ (by simp))]

theorem EndsWithin.equalWithin_eq {steps first second : Nat} {left right : Address}
    (ends : heap.EndsWithin steps left) (deep : steps < first) (deep' : steps < second) :
    heap.equalWithin first left right = heap.equalWithin second left right := by
  induction first generalizing steps second left right with
  | zero => omega
  | succ first induction =>
      obtain ⟨second, rfl⟩ := Nat.exists_eq_add_of_lt (Nat.zero_lt_of_lt deep')
      rw [Nat.zero_add] at deep' ⊢
      rw [equalWithin_succ, equalWithin_succ]
      congr 1
      apply agree_congr
      intro payload _ found _ child member _ _
      obtain ⟨fewer, rfl, endsBelow⟩ := ends.child ⟨payload, found, member⟩
      exact induction endsBelow (by omega) (by omega)

/-! ## What acyclicity is good for -/

/-- Slots lead nowhere twice, and neither reading nor comparing depends on the
bound on its depth. -/
structure Grounded (heap : Heap) : Prop where
  acyclic : heap.Acyclic
  descends : WellFounded fun child holder => heap.Holds holder child
  tree : ∀ {depth address}, heap.cells.size < depth →
    heap.treeWithin depth address = heap.tree address
  equals : ∀ {depth left right}, heap.cells.size < depth →
    heap.equalWithin depth left right = heap.equals left right

theorem Acyclic.grounded (acyclic : heap.Acyclic) : heap.Grounded := by
  constructor
  · exact acyclic
  · exact ⟨fun address => (acyclic.endsWithin address).accessible⟩
  · intro depth address deep
    exact (acyclic.endsWithin address).treeWithin_eq deep (Nat.lt_succ_self _)
  · intro depth left right deep
    apply (acyclic.endsWithin left).equalWithin_eq deep
    exact Nat.lt_of_lt_of_le (Nat.lt_succ_self _) (Nat.le_mul_self _)

/-- Every living object is led to from one that more refers to than slots of
others. -/
def Reclaimed (heap : Heap) : Prop :=
  ∀ {address object}, heap.get? address = some object →
    ∃ root referred, heap.get? root = some referred ∧ heap.stored.count root < referred.handles ∧
      heap.Reaches {root} address

theorem Reaches.from_root {roots : Multiset Address} {address : Address}
    (reaches : heap.Reaches roots address) :
    ∃ root ∈ roots, heap.Reaches {root} address := by
  induction reaches with
  | root member => exact ⟨_, member, .root (Multiset.mem_singleton_self _)⟩
  | slot _ holds induction =>
      obtain ⟨root, member, reached⟩ := induction
      exact ⟨root, member, .slot reached holds⟩

theorem Balanced.reclaimed (balanced : heap.Balanced slots handles)
    (separated : heap.Separated kept lent) : heap.Reclaimed := by
  intro address object alive
  obtain ⟨root, member, reached⟩ := (balanced.reaches_of_alive separated alive).from_root
  obtain ⟨referred, found⟩ := balanced.alive_of_reaches (.root member)
  refine ⟨root, referred, found, ?_, reached⟩
  have counted := balanced.handled found
  have outside := Multiset.count_pos.mpr member
  rw [add_assoc, Multiset.count_add] at counted
  omega

end Heap

end ScriptEngine
