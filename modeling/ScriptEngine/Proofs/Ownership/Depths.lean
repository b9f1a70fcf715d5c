import Mathlib.Data.Finset.Prod
import ScriptEngine.Proofs.Ownership.Acyclicity

/-!
# Looking deeper

A comparison that looks deeper finds no fewer objects equal, and as there are only so many
pairs of objects, looking deeper than their number makes no difference, whether or not slots
lead in circles.  Objects are therefore equal if they are found so at any depth.
-/

namespace ScriptEngine

namespace Heap

variable {heap : Heap} {left right : Address}

@[simp] theorem equalWithin_self (heap : Heap) (depth : Nat) (address : Address) :
    heap.equalWithin depth address address = true := by
  cases depth with
  | zero => exact beq_self_eq_true address
  | succ depth => rw [equalWithin_succ, beq_self_eq_true, Bool.true_or]

theorem agree_mono {equal equal' : Address → Address → Bool}
    (implies : ∀ {left right}, equal left right = true → equal' left right = true)
    {left right : Option Payload} (agrees : agree equal left right = true) :
    agree equal' left right = true := by
  cases left with
  | none => simp [agree] at agrees
  | some payload =>
      cases right with
      | none => cases payload <;> simp [agree] at agrees
      | some other =>
          cases payload <;> cases other <;> simp only [agree, reduceCtorEq] at agrees ⊢
          · exact agrees
          · rw [Bool.and_eq_true, List.all_eq_true] at agrees ⊢
            exact ⟨agrees.1, fun pair member => implies (agrees.2 pair member)⟩
          · rw [Bool.and_eq_true, List.all_eq_true] at agrees ⊢
            refine ⟨agrees.1, fun pair member => ?_⟩
            have both := Bool.and_eq_true_iff.mp (agrees.2 pair member)
            exact Bool.and_eq_true_iff.mpr ⟨implies both.1, implies both.2⟩

theorem equalWithin_succ_of_equalWithin {depth : Nat}
    (same : heap.equalWithin depth left right = true) :
    heap.equalWithin (depth + 1) left right = true := by
  induction depth generalizing left right with
  | zero =>
      cases beq_iff_eq.mp same
      exact heap.equalWithin_self 1 left
  | succ depth induction =>
      rw [equalWithin_succ, Bool.or_eq_true] at same ⊢
      exact same.imp id fun agrees => agree_mono induction agrees

theorem equalWithin_mono {depth deeper : Nat} (more : depth ≤ deeper)
    (same : heap.equalWithin depth left right = true) :
    heap.equalWithin deeper left right = true := by
  induction more with
  | refl => exact same
  | step _ induction => exact equalWithin_succ_of_equalWithin induction

/-- Looking one step deeper finds nothing more. -/
def Settled (heap : Heap) (depth : Nat) : Prop :=
  ∀ left right, heap.equalWithin (depth + 1) left right = true →
    heap.equalWithin depth left right = true

theorem Settled.equalWithin {depth : Nat} (settled : heap.Settled depth) (deeper : Nat)
    (same : heap.equalWithin deeper left right = true) :
    heap.equalWithin depth left right = true := by
  induction deeper generalizing left right with
  | zero => exact equalWithin_mono (Nat.zero_le depth) same
  | succ deeper induction =>
      apply settled
      rw [equalWithin_succ, Bool.or_eq_true] at same ⊢
      exact same.imp id fun agrees => agree_mono induction agrees

/-- The pairs of objects that are found equal. -/
def equalPairs (heap : Heap) (depth : Nat) : Finset (Address × Address) :=
  (Finset.range heap.cells.size ×ˢ Finset.range heap.cells.size).filter fun pair =>
    heap.equalWithin depth pair.1 pair.2 = true

theorem lt_size_of_agree {equal : Address → Address → Bool}
    (agrees : agree equal (heap.payload? left) (heap.payload? right) = true) :
    left < heap.cells.size ∧ right < heap.cells.size := by
  cases found : heap.payload? left with
  | none => simp [found, agree] at agrees
  | some payload =>
      cases found' : heap.payload? right with
      | none => cases payload <;> simp [found, found', agree] at agrees
      | some other => exact ⟨lt_size_of_payload? found, lt_size_of_payload? found'⟩

/-- As long as looking deeper finds more, there is one more pair at each step. -/
theorem card_equalPairs {depth : Nat} (unsettled : ∀ fewer < depth, ¬ heap.Settled fewer) :
    depth ≤ (heap.equalPairs depth).card := by
  induction depth with
  | zero => exact Nat.zero_le _
  | succ depth induction =>
      have more := induction fun fewer small => unsettled fewer (Nat.lt_succ_of_lt small)
      refine more.trans_lt (Finset.card_lt_card ?_)
      have open' := unsettled depth (Nat.lt_succ_self depth)
      simp only [Settled, not_forall] at open'
      obtain ⟨left, right, found, lacking⟩ := open'
      rw [Finset.ssubset_iff_of_subset]
      · refine ⟨(left, right), ?_, fun member => lacking (Finset.mem_filter.mp member).2⟩
        have agrees := found
        rw [equalWithin_succ, Bool.or_eq_true, beq_iff_eq] at agrees
        rcases agrees with rfl | agrees
        · exact absurd (heap.equalWithin_self depth left) lacking
        · obtain ⟨old, old'⟩ := lt_size_of_agree agrees
          simp [equalPairs, old, old', found]
      · intro pair member
        obtain ⟨inside, same⟩ := Finset.mem_filter.mp member
        exact Finset.mem_filter.mpr ⟨inside, equalWithin_succ_of_equalWithin same⟩

theorem exists_settled (heap : Heap) :
    ∃ depth ≤ heap.cells.size * heap.cells.size, heap.Settled depth := by
  by_contra none
  have unsettled : ∀ depth < heap.cells.size * heap.cells.size + 1, ¬ heap.Settled depth :=
    fun depth small settled => none ⟨depth, Nat.le_of_lt_succ small, settled⟩
  have many := card_equalPairs unsettled
  have few := Finset.card_filter_le (Finset.range heap.cells.size ×ˢ Finset.range heap.cells.size)
    fun pair => heap.equalWithin (heap.cells.size * heap.cells.size + 1) pair.1 pair.2 = true
  rw [Finset.card_product, Finset.card_range] at few
  exact absurd (many.trans few) (Nat.not_succ_le_self _)

/-- Objects are equal if they are found so at any depth. -/
theorem equals_iff : heap.equals left right = true ↔ ∃ depth, heap.equalWithin depth left right = true := by
  refine ⟨fun same => ⟨_, same⟩, ?_⟩
  rintro ⟨depth, same⟩
  obtain ⟨enough, small, settled⟩ := heap.exists_settled
  exact equalWithin_mono (small.trans (Nat.mul_le_mul (Nat.le_succ _) (Nat.le_succ _)))
    (settled.equalWithin depth same)

end Heap

end ScriptEngine
