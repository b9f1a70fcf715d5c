import ScriptEngine.Proofs.Ownership.Namesakes

/-!
# Equality of objects

Structural equality is reflexive, by identity, symmetric and transitive, also where some of
the compared parts are one object and others are copies.  Of keys that are equal to each
other the first stands for all.
-/

namespace ScriptEngine

theorem Scalar.equals_trans {first second third : Scalar} (one : first.equals second = true)
    (other : second.equals third = true) : first.equals third = true :=
  (equals_congr other first).symm.trans one

namespace Heap

variable {heap before after : Heap} {first second third left right : Address}

/-! ## An equivalence -/

theorem all_zip_trans {α : Type} (test : α → α → Bool)
    (transitive : ∀ first second third, test first second = true → test second third = true →
      test first third = true) :
    ∀ {firsts seconds thirds : List α}, firsts.length = seconds.length →
      seconds.length = thirds.length →
      (firsts.zip seconds).all (fun pair => test pair.1 pair.2) = true →
      (seconds.zip thirds).all (fun pair => test pair.1 pair.2) = true →
      (firsts.zip thirds).all (fun pair => test pair.1 pair.2) = true
  | [], _, _, _, _, _, _ => rfl
  | first :: firsts, second :: seconds, third :: thirds, length, length', one, other => by
      simp only [List.zip_cons_cons, List.all_cons, Bool.and_eq_true] at one other ⊢
      exact ⟨transitive _ _ _ one.1 other.1, all_zip_trans test transitive (Nat.succ.inj length)
        (Nat.succ.inj length') one.2 other.2⟩

theorem agree_trans (equal : Address → Address → Bool)
    (transitive : ∀ first second third, equal first second = true → equal second third = true →
      equal first third = true) {first second third : Option Payload}
    (one : agree equal first second = true) (other : agree equal second third = true) :
    agree equal first third = true := by
  cases first with
  | none => simp [agree] at one
  | some content =>
      cases second with
      | none => simp [agree] at other
      | some content' =>
          cases third with
          | none => cases content' <;> simp [agree] at other
          | some content'' =>
              cases content <;> cases content' <;> simp only [agree, reduceCtorEq] at one <;>
                cases content'' <;>
                simp only [agree, reduceCtorEq, Bool.and_eq_true, beq_iff_eq] at one other ⊢
              · exact Scalar.equals_trans one other
              · exact ⟨one.1.trans other.1,
                  all_zip_trans equal transitive one.1 other.1 one.2 other.2⟩
              · refine ⟨one.1.trans other.1, all_zip_trans
                  (fun entry entry' => equal entry.1 entry'.1 && equal entry.2 entry'.2) ?_ one.1
                  other.1 one.2 other.2⟩
                intro entry entry' entry'' both both'
                rw [Bool.and_eq_true] at both both' ⊢
                exact ⟨transitive _ _ _ both.1 both'.1, transitive _ _ _ both.2 both'.2⟩

theorem equalWithin_trans {depth : Nat} (one : heap.equalWithin depth first second = true)
    (other : heap.equalWithin depth second third = true) :
    heap.equalWithin depth first third = true := by
  induction depth generalizing first second third with
  | zero =>
      cases beq_iff_eq.mp one
      exact other
  | succ depth induction =>
      rw [equalWithin_succ, Bool.or_eq_true, beq_iff_eq] at one other
      rcases one with rfl | one
      · rwa [equalWithin_succ, Bool.or_eq_true, beq_iff_eq]
      · rcases other with rfl | other
        · rw [equalWithin_succ, one, Bool.or_true]
        · rw [equalWithin_succ, agree_trans (heap.equalWithin depth) (fun _ _ _ => induction) one other,
            Bool.or_true]

@[simp] theorem equals_self (heap : Heap) (address : Address) : heap.equals address address = true :=
  heap.equalWithin_self _ address

theorem equals_trans (one : heap.equals first second = true)
    (other : heap.equals second third = true) : heap.equals first third = true :=
  equalWithin_trans one other

/-- Equal objects are equal to the same ones. -/
theorem equals_congr (same : heap.equals first second = true) (address : Address) :
    heap.equals address first = heap.equals address second := by
  rw [Bool.eq_iff_iff]
  constructor
  · exact fun equal => equals_trans equal same
  · exact fun equal => equals_trans equal ((heap.equals_comm second first).trans same)

/-! ## The first of equal keys -/

/-- The keys that are equal to none before them, in order. -/
def firsts (heap : Heap) : List Address → List Address
  | [] => []
  | key :: keys => key :: (heap.firsts keys).filter fun other => !heap.equals key other

theorem firsts_subset (heap : Heap) (keys : List Address) : heap.firsts keys ⊆ keys := by
  induction keys with
  | nil => exact List.Subset.refl []
  | cons key keys induction =>
      exact List.cons_subset_cons key (fun other member => induction (List.mem_of_mem_filter member))

theorem firsts_append (heap : Heap) (keys : List Address) (key : Address) :
    heap.firsts (keys ++ [key]) =
      heap.firsts keys ++ if keys.any (heap.equals · key) then [] else [key] := by
  induction keys with
  | nil => rfl
  | cons first keys induction =>
      rw [List.cons_append, firsts, induction, firsts, List.filter_append, List.cons_append,
        List.any_cons]
      congr 2
      cases same : heap.equals first key <;> cases keys.any (heap.equals · key) <;> simp [same]

theorem firsts_pairwise (heap : Heap) (keys : List Address) :
    (heap.firsts keys).Pairwise fun first second => heap.equals first second = false := by
  induction keys with
  | nil => exact .nil
  | cons key keys induction =>
      refine List.pairwise_cons.mpr ⟨fun other member => ?_, induction.filter _⟩
      simpa using (List.mem_filter.mp member).2

theorem exists_mem_firsts {keys : List Address} {key : Address} (member : key ∈ keys) :
    ∃ first ∈ heap.firsts keys, heap.equals first key = true := by
  induction keys with
  | nil => exact absurd member List.not_mem_nil
  | cons other keys induction =>
      rcases List.mem_cons.mp member with rfl | member
      · exact ⟨key, List.mem_cons_self, heap.equals_self key⟩
      · obtain ⟨first, inside, same⟩ := induction member
        cases earlier : heap.equals other first with
        | true => exact ⟨other, List.mem_cons_self, equals_trans earlier same⟩
        | false =>
            have kept : first ∈ (heap.firsts keys).filter fun other' => !heap.equals other other' :=
              List.mem_filter.mpr ⟨inside, by simp [earlier]⟩
            exact ⟨first, List.mem_cons_of_mem other kept, same⟩

/-- A key is equal to one of some keys exactly if it is to one of the first of them. -/
theorem any_firsts (heap : Heap) (keys : List Address) (key : Address) :
    (heap.firsts keys).any (heap.equals · key) = keys.any (heap.equals · key) := by
  rw [Bool.eq_iff_iff, List.any_eq_true, List.any_eq_true]
  constructor
  · rintro ⟨first, member, same⟩
    exact ⟨first, heap.firsts_subset keys member, same⟩
  · rintro ⟨other, member, same⟩
    obtain ⟨first, inside, earlier⟩ := exists_mem_firsts member
    exact ⟨first, inside, equals_trans earlier same⟩

end Heap

end ScriptEngine
