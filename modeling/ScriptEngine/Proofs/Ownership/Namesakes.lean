import ScriptEngine.Proofs.Ownership.Lookups

/-!
# Equal keys

Objects that are equal to the same key are found in the same places: where one tree is
equal to another, a third is equal to both or to neither, and they lead to the same
slots.
-/

namespace ScriptEngine

/-! ## Equality with equals -/

theorem Binary32.eq_of_agrees {left right : Binary32} (agrees : left.agrees right = true) :
    Quantity.ofBinary32 left = Quantity.ofBinary32 right := by
  unfold Binary32.agrees at agrees
  generalize Quantity.ofBinary32 left = first at agrees ⊢
  generalize Quantity.ofBinary32 right = second at agrees ⊢
  cases first <;> cases second <;> simp_all [Quantity.compare]

namespace Scalar

variable {first second : Scalar}

theorem equals_congr (same : first.equals second = true) (value : Scalar) :
    value.equals first = value.equals second := by
  cases first with
  | float number =>
      cases second with
      | float other =>
          cases value <;> simp [equals, Binary32.agrees, Binary32.eq_of_agrees same]
      | _ => simp [equals] at same
  | _ => cases second <;> simp_all [equals]

theorem isNan_of_equals (same : first.equals second = true) : first.isNan = false := by
  cases first with
  | float number =>
      cases second with
      | float other =>
          rw [equals, Binary32.agrees, beq_iff_eq] at same
          rw [isNan, Binary32.isNaN]
          split
          · rename_i meaning
            simp [Quantity.ofBinary32, meaning, Quantity.compare] at same
          · rfl
      | _ => simp [equals] at same
  | _ => rfl

end Scalar

namespace Tree

mutual

theorem equals_congr : (first second : Tree) → first.equals second = true → ∀ tree : Tree,
    tree.equals first = tree.equals second
  | .scalar _ value, .scalar _ other, same, tree => by
      cases tree with
      | scalar type content => exact Scalar.equals_congr same content
      | vector type trees => rfl
      | dict type pairs => rfl
  | .vector _ trees, .vector _ others, same, tree => by
      cases tree with
      | scalar type content => rfl
      | vector type elements => exact equalsAll_congr trees others same elements
      | dict type pairs => rfl
  | .dict _ pairs, .dict _ others, same, tree => by
      cases tree with
      | scalar type content => rfl
      | vector type elements => rfl
      | dict type entries => exact equalsEntries_congr pairs others same entries

theorem equalsAll_congr : (firsts seconds : List Tree) → equalsAll firsts seconds = true →
    ∀ trees, equalsAll trees firsts = equalsAll trees seconds
  | [], [], _, _ => rfl
  | first :: firsts, second :: seconds, same, trees => by
      rw [equalsAll, Bool.and_eq_true] at same
      cases trees with
      | nil => rfl
      | cons tree trees =>
          rw [equalsAll, equalsAll, equals_congr first second same.1 tree,
            equalsAll_congr firsts seconds same.2 trees]

theorem equalsEntries_congr : (firsts seconds : List (Tree × Tree)) →
    equalsEntries firsts seconds = true →
      ∀ pairs, equalsEntries pairs firsts = equalsEntries pairs seconds
  | [], [], _, _ => rfl
  | (key, value) :: firsts, (key', value') :: seconds, same, pairs => by
      rw [equalsEntries, Bool.and_eq_true, Bool.and_eq_true] at same
      cases pairs with
      | nil => rfl
      | cons pair pairs =>
          rw [equalsEntries, equalsEntries, equals_congr key key' same.1.1 pair.1,
            equals_congr value value' same.1.2 pair.2,
            equalsEntries_congr firsts seconds same.2 pairs]

end

mutual

theorem hasNan_of_equals : (first second : Tree) → first.equals second = true →
    first.hasNan = false
  | .scalar _ _, .scalar _ _, same => Scalar.isNan_of_equals same
  | .vector _ trees, .vector _ others, same => hasNanAll_of_equals trees others same
  | .dict _ pairs, .dict _ others, same => hasNanEntries_of_equals pairs others same

theorem hasNanAll_of_equals : (firsts seconds : List Tree) → equalsAll firsts seconds = true →
    hasNanAll firsts = false
  | [], [], _ => rfl
  | first :: firsts, second :: seconds, same => by
      rw [equalsAll, Bool.and_eq_true] at same
      rw [hasNanAll, hasNan_of_equals first second same.1,
        hasNanAll_of_equals firsts seconds same.2]
      rfl

theorem hasNanEntries_of_equals : (firsts seconds : List (Tree × Tree)) →
    equalsEntries firsts seconds = true → hasNanEntries firsts = false
  | [], [], _ => rfl
  | (key, value) :: firsts, (key', value') :: seconds, same => by
      rw [equalsEntries, Bool.and_eq_true, Bool.and_eq_true] at same
      rw [hasNanEntries, hasNan_of_equals key key' same.1.1, hasNan_of_equals value value' same.1.2,
        hasNanEntries_of_equals firsts seconds same.2]
      rfl

end

/-- Equal trees are the same index. -/
theorem vectorPosition_congr {first second : Tree} (same : first.equals second = true)
    (length : Nat) : vectorPosition first.shape length = vectorPosition second.shape length := by
  cases first with
  | scalar type value =>
      cases second with
      | scalar type' other =>
          rw [equals] at same
          cases value with
          | int number => cases other <;> simp_all [Scalar.equals, shape]
          | usize number => cases other <;> simp_all [Scalar.equals, shape]
          | _ => cases other <;> first | rfl | cases same
      | vector type' others => simp [equals] at same
      | dict type' others => simp [equals] at same
  | vector type trees =>
      cases second with
      | vector type' others => rfl
      | scalar type' other => simp [equals] at same
      | dict type' others => simp [equals] at same
  | dict type pairs =>
      cases second with
      | dict type' others => rfl
      | scalar type' other => simp [equals] at same
      | vector type' others => simp [equals] at same

end Tree

namespace Heap

variable {heap : Heap} {container key other value : Address} {first second tree : Tree}

theorem findTree?_congr (same : first.equals second = true) (keys : List Address) :
    heap.findTree? keys first = heap.findTree? keys second := by
  rw [findTree?, findTree?]
  exact findIdx?_congr fun content _ => Tree.equals_congr first second same content

/-- Equal keys lead to the same slot. -/
theorem spotAt_congr (same : first.equals second = true) (container : Address) :
    heap.spotAt container first = heap.spotAt container second := by
  unfold spotAt
  simp only [Tree.vectorPosition_congr same, findTree?_congr same]

/-! ## What is equal to a key -/

theorem exists_mem_zip {α : Type} {lefts rights : List α} (length : lefts.length = rights.length)
    {right : α} (member : right ∈ rights) : ∃ left, (left, right) ∈ lefts.zip rights := by
  obtain ⟨index, inside, rfl⟩ := List.mem_iff_getElem.mp member
  have inside' : index < (lefts.zip rights).length := by
    rw [List.length_zip]
    omega
  refine ⟨lefts[index], ?_⟩
  rw [← List.getElem_zip (h := inside')]
  exact List.getElem_mem inside'

theorem agree_child {equal : Address → Address → Bool} {payload payload' : Payload} {child : Address}
    (agrees : agree equal (some payload) (some payload') = true) (member : child ∈ payload'.children) :
    ∃ counterpart ∈ payload.children, equal counterpart child = true := by
  cases payload with
  | scalar content =>
      cases payload' with
      | scalar content' => simp [Payload.children] at member
      | vector others => simp [agree] at agrees
      | dict others => simp [agree] at agrees
  | vector elements =>
      cases payload' with
      | scalar content' => simp [agree] at agrees
      | dict others => simp [agree] at agrees
      | vector others =>
          rw [agree, Bool.and_eq_true, beq_iff_eq, List.all_eq_true] at agrees
          obtain ⟨counterpart, paired⟩ := exists_mem_zip agrees.1 member
          exact ⟨counterpart, (List.of_mem_zip paired).1, agrees.2 _ paired⟩
  | dict entries =>
      cases payload' with
      | scalar content' => simp [agree] at agrees
      | vector others => simp [agree] at agrees
      | dict others =>
          rw [agree, Bool.and_eq_true, beq_iff_eq, List.all_eq_true] at agrees
          obtain ⟨pair, inside, chosen⟩ := List.mem_flatMap.mp member
          obtain ⟨counterpart, paired⟩ := exists_mem_zip agrees.1 inside
          have slots : ∀ slot ∈ [counterpart.1, counterpart.2], slot ∈ (Payload.dict entries).children :=
            fun slot one => List.mem_flatMap.mpr ⟨counterpart, (List.of_mem_zip paired).1, one⟩
          have both := Bool.and_eq_true _ _ ▸ agrees.2 _ paired
          simp only [List.mem_cons, List.not_mem_nil, or_false] at chosen
          rcases chosen with rfl | rfl
          · exact ⟨_, slots _ (by simp), both.1⟩
          · exact ⟨_, slots _ (by simp), both.2⟩

/-- A walk from an object ends where one from an equal object does. -/
theorem EndsWithin.of_equalWithin {steps depth : Nat} (ends : heap.EndsWithin steps key)
    (same : heap.equalWithin depth key other = true) : heap.EndsWithin steps other := by
  induction depth generalizing steps key other with
  | zero =>
      cases beq_iff_eq.mp same
      exact ends
  | succ depth induction =>
      rw [equalWithin_succ, Bool.or_eq_true, beq_iff_eq] at same
      rcases same with rfl | agrees
      · exact ends
      · have inside : ∀ child, heap.Holds other child → ∃ counterpart, heap.Holds key counterpart ∧
            heap.equalWithin depth counterpart child = true := by
          rintro child ⟨payload', found', member⟩
          rw [found'] at agrees
          cases found : heap.payload? key with
          | none => simp [found, agree] at agrees
          | some payload =>
              rw [found] at agrees
              obtain ⟨counterpart, member', paired⟩ := agree_child agrees member
              exact ⟨counterpart, ⟨payload, found, member'⟩, paired⟩
        cases steps with
        | zero =>
            intro child holds
            obtain ⟨counterpart, holds', _⟩ := inside child holds
            exact ends counterpart holds'
        | succ steps =>
            intro child holds
            obtain ⟨counterpart, holds', paired⟩ := inside child holds
            exact induction (ends counterpart holds') paired

/-- What is equal to a key has an equal tree. -/
theorem Balanced.depicts_of_equals {slots handles : Multiset Address}
    (balanced : heap.Balanced slots handles) (ends : heap.EndsWithin heap.cells.size key)
    (depicts : heap.Depicts key tree) (proper : tree.hasNan = false)
    (alive : heap.payload? other ≠ none) (same : heap.equals other key = true) :
    heap.Depicts other (heap.tree other) ∧ (heap.tree other).equals tree = true := by
  have ends' : heap.EndsWithin heap.cells.size other :=
    ends.of_equalWithin ((equals_comm heap key other).trans same)
  have shown := balanced.depicts ends' alive
  exact ⟨shown, (ends'.equals_eq shown depicts proper).symm.trans same⟩

end Heap

end ScriptEngine
