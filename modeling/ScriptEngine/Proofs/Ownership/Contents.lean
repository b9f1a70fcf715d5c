import ScriptEngine.Proofs.Ownership.Copies

/-!
# Contents

Whether two objects are equal can be told from their trees, as long as one of them
has no NaN in it: then an object equals itself, as it does by identity.  So an
object can be found again with another one of the same contents, also in another
heap.
-/

namespace ScriptEngine

namespace Scalar

/-- Whether the value is a float that is no number. -/
def isNan : Scalar → Bool
  | .float value => value.isNaN
  | _ => false

theorem equals_self {value : Scalar} (proper : value.isNan = false) :
    value.equals value = true := by
  cases value with
  | float number =>
      simp only [isNan, Binary32.isNaN] at proper
      simp only [equals, Binary32.agrees, Quantity.ofBinary32]
      split at proper
      · cases proper
      · rename_i meaning
        split
        · exact absurd ‹_› meaning
        · rfl
        · rfl
        · simp [Quantity.compare]
  | _ => simp [equals]

end Scalar

namespace Tree

mutual

/-- Whether there is a NaN in the tree. -/
def hasNan : Tree → Bool
  | .scalar _ value => value.isNan
  | .vector _ elements => hasNanAll elements
  | .dict _ entries => hasNanEntries entries

def hasNanAll : List Tree → Bool
  | [] => false
  | tree :: others => tree.hasNan || hasNanAll others

def hasNanEntries : List (Tree × Tree) → Bool
  | [] => false
  | (key, value) :: others => key.hasNan || value.hasNan || hasNanEntries others

end

mutual

/-- Whether there is the same in both trees, types aside. -/
def equals : Tree → Tree → Bool
  | .scalar _ left, .scalar _ right => left.equals right
  | .vector _ lefts, .vector _ rights => equalsAll lefts rights
  | .dict _ lefts, .dict _ rights => equalsEntries lefts rights
  | _, _ => false

def equalsAll : List Tree → List Tree → Bool
  | [], [] => true
  | left :: lefts, right :: rights => left.equals right && equalsAll lefts rights
  | _, _ => false

def equalsEntries : List (Tree × Tree) → List (Tree × Tree) → Bool
  | [], [] => true
  | (key, value) :: lefts, right :: rights =>
      key.equals right.1 && value.equals right.2 && equalsEntries lefts rights
  | _, _ => false

end

mutual

theorem equals_self : (tree : Tree) → tree.hasNan = false → tree.equals tree = true
  | .scalar _ _, proper => Scalar.equals_self proper
  | .vector _ elements, proper => equalsAll_self elements proper
  | .dict _ entries, proper => equalsEntries_self entries proper

theorem equalsAll_self : (trees : List Tree) → hasNanAll trees = false → equalsAll trees trees = true
  | [], _ => rfl
  | tree :: others, proper => by
      rw [hasNanAll, Bool.or_eq_false_iff] at proper
      rw [equalsAll, equals_self tree proper.1, equalsAll_self others proper.2]
      rfl

theorem equalsEntries_self : (entries : List (Tree × Tree)) → hasNanEntries entries = false →
    equalsEntries entries entries = true
  | [], _ => rfl
  | (key, value) :: others, proper => by
      rw [hasNanEntries, Bool.or_eq_false_iff, Bool.or_eq_false_iff] at proper
      rw [equalsEntries, equals_self key proper.1.1, equals_self value proper.1.2,
        equalsEntries_self others proper.2]
      rfl

end

end Tree

namespace Heap

variable {heap before after : Heap} {left right : Address}

/-! ## Objects and their trees -/

mutual

/-- Two trees of one object are equal. -/
theorem Depicts.equals_self : (first second : Tree) → ∀ {address}, heap.Depicts address first →
    heap.Depicts address second → second.hasNan = false → first.equals second = true
  | .scalar _ value, .scalar _ _, _, depicts, depicts', proper => by
      cases depicts.symm.trans depicts'
      exact Scalar.equals_self proper
  | .vector _ trees, .vector _ trees', _, ⟨_, found, all⟩, ⟨_, found', all'⟩, proper => by
      cases found.symm.trans found'
      exact depictsAll_equals trees trees' all all' proper
  | .dict _ pairs, .dict _ pairs', _, ⟨_, found, all⟩, ⟨_, found', all'⟩, proper => by
      cases found.symm.trans found'
      exact depictsEntries_equals pairs pairs' all all' proper
  | .scalar _ _, .vector _ _, _, depicts, ⟨_, found', _⟩, _ => by
      cases depicts.symm.trans found'
  | .scalar _ _, .dict _ _, _, depicts, ⟨_, found', _⟩, _ => by
      cases depicts.symm.trans found'
  | .vector _ _, .scalar _ _, _, ⟨_, found, _⟩, depicts', _ => by
      cases found.symm.trans depicts'
  | .vector _ _, .dict _ _, _, ⟨_, found, _⟩, ⟨_, found', _⟩, _ => by
      cases found.symm.trans found'
  | .dict _ _, .scalar _ _, _, ⟨_, found, _⟩, depicts', _ => by
      cases found.symm.trans depicts'
  | .dict _ _, .vector _ _, _, ⟨_, found, _⟩, ⟨_, found', _⟩, _ => by
      cases found.symm.trans found'

theorem depictsAll_equals : (first second : List Tree) → ∀ {addresses},
    heap.DepictsAll addresses first → heap.DepictsAll addresses second →
    Tree.hasNanAll second = false → Tree.equalsAll first second = true
  | [], [], _, _, _, _ => rfl
  | [], _ :: _, [], _, all', _ => all'.elim
  | [], _ :: _, _ :: _, all, _, _ => all.elim
  | _ :: _, [], [], all, _, _ => all.elim
  | _ :: _, [], _ :: _, _, all', _ => all'.elim
  | tree :: trees, tree' :: trees', _ :: _, ⟨depicts, all⟩, ⟨depicts', all'⟩, proper => by
      rw [Tree.hasNanAll, Bool.or_eq_false_iff] at proper
      rw [Tree.equalsAll, depicts.equals_self tree tree' depicts' proper.1,
        depictsAll_equals trees trees' all all' proper.2]
      rfl

theorem depictsEntries_equals : (first second : List (Tree × Tree)) → ∀ {entries},
    heap.DepictsEntries entries first → heap.DepictsEntries entries second →
    Tree.hasNanEntries second = false → Tree.equalsEntries first second = true
  | [], [], _, _, _, _ => rfl
  | [], _ :: _, [], _, all', _ => all'.elim
  | [], _ :: _, _ :: _, all, _, _ => all.elim
  | _ :: _, [], [], all, _, _ => all.elim
  | _ :: _, [], _ :: _, _, all', _ => all'.elim
  | (key, value) :: pairs, (key', value') :: pairs', _ :: _, ⟨depicts, depicts', all⟩,
      ⟨shows, shows', all'⟩, proper => by
      rw [Tree.hasNanEntries, Bool.or_eq_false_iff, Bool.or_eq_false_iff] at proper
      rw [Tree.equalsEntries, Depicts.equals_self key key' depicts shows proper.1.1,
        Depicts.equals_self value value' depicts' shows' proper.1.2,
        depictsEntries_equals pairs pairs' all all' proper.2]
      rfl

end

theorem all_zip_cons {α : Type} (test : α × α → Bool) (left right : α) (lefts rights : List α) :
    ((left :: lefts).length == (right :: rights).length &&
        ((left :: lefts).zip (right :: rights)).all test) =
      (test (left, right) && (lefts.length == rights.length && (lefts.zip rights).all test)) := by
  rw [List.zip_cons_cons, List.all_cons, Bool.and_left_comm]
  simp

section Comparison

variable {equal : Address → Address → Bool}

/-- How lists of objects compare if each object compares as its tree does. -/
theorem all_zip_eq {lefts rights : List Address} {trees trees' : List Tree}
    (all : heap.DepictsAll lefts trees) (all' : heap.DepictsAll rights trees')
    (proper : Tree.hasNanAll trees' = false)
    (same : ∀ left ∈ lefts, ∀ right ∈ rights, ∀ {tree tree'}, heap.Depicts left tree →
      heap.Depicts right tree' → tree'.hasNan = false → equal left right = tree.equals tree') :
    (lefts.length == rights.length && (lefts.zip rights).all fun pair => equal pair.1 pair.2) =
      Tree.equalsAll trees trees' := by
  induction lefts generalizing rights trees trees' with
  | nil =>
      cases trees with
      | cons tree trees => exact all.elim
      | nil =>
          cases rights with
          | nil =>
              cases trees' with
              | nil => rfl
              | cons tree' trees' => exact all'.elim
          | cons right rights =>
              cases trees' with
              | nil => exact all'.elim
              | cons tree' trees' => rfl
  | cons left lefts induction =>
      cases trees with
      | nil => exact all.elim
      | cons tree trees =>
          cases rights with
          | nil =>
              cases trees' with
              | nil => rfl
              | cons tree' trees' => exact all'.elim
          | cons right rights =>
              cases trees' with
              | nil => exact all'.elim
              | cons tree' trees' =>
                  rw [Tree.hasNanAll, Bool.or_eq_false_iff] at proper
                  have first := same left List.mem_cons_self right List.mem_cons_self all.1 all'.1
                    proper.1
                  have rest := induction all.2 all'.2 proper.2 fun other member another member' =>
                    same other (List.mem_cons_of_mem _ member) another (List.mem_cons_of_mem _ member')
                  rw [all_zip_cons, rest, first, Tree.equalsAll]

theorem all_zip_entries_eq {lefts rights : List (Address × Address)} {trees trees' : List (Tree × Tree)}
    (all : heap.DepictsEntries lefts trees) (all' : heap.DepictsEntries rights trees')
    (proper : Tree.hasNanEntries trees' = false)
    (same : ∀ left ∈ (Payload.dict lefts).children, ∀ right ∈ (Payload.dict rights).children,
      ∀ {tree tree'}, heap.Depicts left tree → heap.Depicts right tree' → tree'.hasNan = false →
        equal left right = tree.equals tree') :
    (lefts.length == rights.length && (lefts.zip rights).all fun pair =>
        equal pair.1.1 pair.2.1 && equal pair.1.2 pair.2.2) =
      Tree.equalsEntries trees trees' := by
  induction lefts generalizing rights trees trees' with
  | nil =>
      cases trees with
      | cons tree trees => exact all.elim
      | nil =>
          cases rights with
          | nil =>
              cases trees' with
              | nil => rfl
              | cons tree' trees' => exact all'.elim
          | cons right rights =>
              cases trees' with
              | nil => exact all'.elim
              | cons tree' trees' => rfl
  | cons left lefts induction =>
      cases trees with
      | nil => exact all.elim
      | cons tree trees =>
          cases rights with
          | nil =>
              cases trees' with
              | nil => rfl
              | cons tree' trees' => exact all'.elim
          | cons right rights =>
              cases trees' with
              | nil => exact all'.elim
              | cons tree' trees' =>
                  obtain ⟨keys, values, all⟩ := all
                  obtain ⟨keys', values', all'⟩ := all'
                  rw [Tree.hasNanEntries, Bool.or_eq_false_iff, Bool.or_eq_false_iff] at proper
                  have inside : ∀ {entry : Address × Address} {entries : List (Address × Address)},
                      ∀ child ∈ (Payload.dict entries).children,
                        child ∈ (Payload.dict (entry :: entries)).children :=
                    fun child member => List.mem_append_right _ member
                  have key := same left.1 (by simp [Payload.children]) right.1
                    (by simp [Payload.children]) keys keys' proper.1.1
                  have value := same left.2 (by simp [Payload.children]) right.2
                    (by simp [Payload.children]) values values' proper.1.2
                  have rest := induction all all' proper.2 fun other member another member' =>
                    same other (inside other member) another (inside another member')
                  rw [all_zip_cons, rest, key, value, Tree.equalsEntries]

theorem agree_eq {tree tree' : Tree} (depicts : heap.Depicts left tree)
    (depicts' : heap.Depicts right tree') (proper : tree'.hasNan = false)
    (same : ∀ {child counterpart}, heap.Holds left child → heap.Holds right counterpart →
      ∀ {tree tree'}, heap.Depicts child tree → heap.Depicts counterpart tree' →
        tree'.hasNan = false → equal child counterpart = tree.equals tree') :
    agree equal (heap.payload? left) (heap.payload? right) = tree.equals tree' := by
  cases tree with
  | scalar type value =>
      have found : heap.payload? left = some (.scalar value) := depicts
      cases tree' with
      | scalar type' value' =>
          have found' : heap.payload? right = some (.scalar value') := depicts'
          rw [found, found']
          rfl
      | vector type' trees' =>
          obtain ⟨others, found', _⟩ := depicts'
          rw [found, found']
          rfl
      | dict type' trees' =>
          obtain ⟨others, found', _⟩ := depicts'
          rw [found, found']
          rfl
  | vector type trees =>
      obtain ⟨elements, found, all⟩ := depicts
      cases tree' with
      | scalar type' value' =>
          have found' : heap.payload? right = some (.scalar value') := depicts'
          rw [found, found']
          rfl
      | vector type' trees' =>
          obtain ⟨others, found', all'⟩ := depicts'
          rw [found, found']
          apply all_zip_eq all all' proper
          intro child member counterpart member'
          exact same ⟨_, found, member⟩ ⟨_, found', member'⟩
      | dict type' trees' =>
          obtain ⟨others, found', _⟩ := depicts'
          rw [found, found']
          rfl
  | dict type trees =>
      obtain ⟨entries, found, all⟩ := depicts
      cases tree' with
      | scalar type' value' =>
          have found' : heap.payload? right = some (.scalar value') := depicts'
          rw [found, found']
          rfl
      | vector type' trees' =>
          obtain ⟨others, found', _⟩ := depicts'
          rw [found, found']
          rfl
      | dict type' trees' =>
          obtain ⟨others, found', all'⟩ := depicts'
          rw [found, found']
          apply all_zip_entries_eq all all' proper
          intro child member counterpart member'
          exact same ⟨_, found, member⟩ ⟨_, found', member'⟩

end Comparison

theorem EndsWithin.equalWithin_eq_of_depicts {steps depth : Nat} {tree tree' : Tree}
    (ends : heap.EndsWithin steps left) (deep : steps < depth) (depicts : heap.Depicts left tree)
    (depicts' : heap.Depicts right tree') (proper : tree'.hasNan = false) :
    heap.equalWithin depth left right = tree.equals tree' := by
  induction depth generalizing steps left right tree tree' with
  | zero => omega
  | succ depth induction =>
      have inside : ∀ {child counterpart}, heap.Holds left child → heap.Holds right counterpart →
          ∀ {tree tree'}, heap.Depicts child tree → heap.Depicts counterpart tree' →
            tree'.hasNan = false →
              heap.equalWithin depth child counterpart = tree.equals tree' := by
        intro child counterpart holds _ tree tree' depicts depicts' proper
        obtain ⟨fewer, rfl, endsBelow⟩ := ends.child holds
        exact induction endsBelow (by omega) depicts depicts' proper
      rw [equalWithin_succ, agree_eq depicts depicts' proper inside]
      by_cases same : left = right
      · subst same
        rw [depicts.equals_self tree tree' depicts' proper, Bool.or_true]
      · rw [beq_eq_false_iff_ne.mpr same, Bool.false_or]

/-- Objects are equal if their trees are. -/
theorem EndsWithin.equals_eq {tree tree' : Tree} (ends : heap.EndsWithin heap.cells.size left)
    (depicts : heap.Depicts left tree) (depicts' : heap.Depicts right tree')
    (proper : tree'.hasNan = false) : heap.equals left right = tree.equals tree' :=
  ends.equalWithin_eq_of_depicts (Nat.lt_of_lt_of_le (Nat.lt_succ_self _) (Nat.le_mul_self _)) depicts
    depicts' proper

/-- Every living object has its tree. -/
theorem Balanced.depicts {slots handles : Multiset Address} (balanced : heap.Balanced slots handles)
    {address : Address} (ends : heap.EndsWithin heap.cells.size address)
    (alive : heap.payload? address ≠ none) : heap.Depicts address (heap.tree address) :=
  ends.depicts (Nat.lt_succ_self _) balanced.closed alive

/-! ## What is built -/

mutual

theorem Depicts.extend : (tree : Tree) → ∀ {address}, before.Depicts address tree →
    Extends before after → after.Depicts address tree
  | .scalar _ _, address, depicts, extends' =>
      (extends'.2 address (lt_size_of_payload? depicts)).trans depicts
  | .vector _ trees, address, ⟨elements, found, all⟩, extends' =>
      ⟨elements, (extends'.2 address (lt_size_of_payload? found)).trans found,
        depictsAll_extend trees all extends'⟩
  | .dict _ pairs, address, ⟨entries, found, all⟩, extends' =>
      ⟨entries, (extends'.2 address (lt_size_of_payload? found)).trans found,
        depictsEntries_extend pairs all extends'⟩

theorem depictsAll_extend : (trees : List Tree) → ∀ {addresses}, before.DepictsAll addresses trees →
    Extends before after → after.DepictsAll addresses trees
  | [], [], _, _ => trivial
  | tree :: trees, _ :: _, ⟨depicts, all⟩, extends' =>
      ⟨depicts.extend tree extends', depictsAll_extend trees all extends'⟩

theorem depictsEntries_extend : (pairs : List (Tree × Tree)) → ∀ {entries},
    before.DepictsEntries entries pairs → Extends before after → after.DepictsEntries entries pairs
  | [], [], _, _ => trivial
  | (key, value) :: pairs, _ :: _, ⟨depicts, depicts', all⟩, extends' =>
      ⟨depicts.extend key extends', Depicts.extend value depicts' extends',
        depictsEntries_extend pairs all extends'⟩

end

mutual

/-- What is built from a tree has that tree. -/
theorem build_depicts : (tree : Tree) → ∀ heap : Heap,
    (heap.build tree).2.Depicts (heap.build tree).1 tree
  | .scalar type value, heap => by
      obtain ⟨root, _, found⟩ := @Extends.root _ heap [] type (.scalar value) (.refl _)
      exact found
  | .vector type trees, heap => by
      obtain ⟨root, _, found⟩ := @Extends.root _ (heap.buildAll trees).2 (heap.buildAll trees).1 type
        (.vector (heap.buildAll trees).1) (.refl _)
      refine ⟨(heap.buildAll trees).1, ?_, depictsAll_extend trees (buildAll_depicts trees heap)
        (Extends.allocate _ _ _ _)⟩
      simp only [build]
      rw [root]
      exact found
  | .dict type pairs, heap => by
      obtain ⟨root, _, found⟩ := @Extends.root _ (heap.buildEntries pairs).2
        (Payload.dict (heap.buildEntries pairs).1).children type
        (.dict (heap.buildEntries pairs).1) (.refl _)
      refine ⟨(heap.buildEntries pairs).1, ?_, depictsEntries_extend pairs
        (buildEntries_depicts pairs heap) (Extends.allocate _ _ _ _)⟩
      simp only [build]
      rw [root]
      exact found

theorem buildAll_depicts : (trees : List Tree) → ∀ heap : Heap,
    (heap.buildAll trees).2.DepictsAll (heap.buildAll trees).1 trees
  | [], _ => trivial
  | tree :: trees, heap =>
      ⟨(build_depicts tree heap).extend tree (Extends.buildAll _ trees),
        buildAll_depicts trees (heap.build tree).2⟩

theorem buildEntries_depicts : (pairs : List (Tree × Tree)) → ∀ heap : Heap,
    (heap.buildEntries pairs).2.DepictsEntries (heap.buildEntries pairs).1 pairs
  | [], _ => trivial
  | (key, value) :: pairs, heap =>
      ⟨(build_depicts key heap).extend key
          ((Extends.build _ value).trans (Extends.buildEntries _ pairs)),
        (build_depicts value (heap.build key).2).extend value (Extends.buildEntries _ pairs),
        buildEntries_depicts pairs _⟩

end

end Heap

end ScriptEngine
