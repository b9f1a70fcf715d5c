import ScriptEngine.Proofs.Hosting.Sessions
import ScriptEngine.Proofs.Operation.Zeros
import ScriptEngine.Proofs.Ownership.Contents
import ScriptEngine.Proofs.Ownership.Equivalence

/-!
# What equality tells apart

Equality of objects is an equivalence, also on objects that have NaN in them, which are equal
to themselves and to what shares their NaN.  Objects without NaN are equal exactly if they
have the same contents: what is in their trees, types and the signs of zeros aside.
-/

namespace ScriptEngine

/-! ## Contents of trees -/

namespace Scalar

/-- The value without the sign of a zero. -/
def unsignedZero : Scalar → Scalar
  | .float number => .float number.unsignedZero
  | value => value

theorem equals_iff {left right : Scalar} (proper : left.isNan = false) :
    left.equals right = true ↔ left.unsignedZero = right.unsignedZero := by
  cases left with
  | float number =>
      cases right with
      | float number' =>
          rw [equals, Binary32.agrees_iff proper, unsignedZero, unsignedZero, float.injEq]
      | _ => simp [equals, unsignedZero]
  | _ => cases right <;> simp [equals, unsignedZero]

end Scalar

namespace Tree

mutual

/-- The tree without its types and the signs of zeros. -/
def contents : Tree → Tree
  | .scalar _ value => .scalar .none value.unsignedZero
  | .vector _ elements => .vector .none (contentsAll elements)
  | .dict _ entries => .dict .none (contentsEntries entries)

def contentsAll : List Tree → List Tree
  | [] => []
  | tree :: others => tree.contents :: contentsAll others

def contentsEntries : List (Tree × Tree) → List (Tree × Tree)
  | [] => []
  | (key, value) :: others => (key.contents, value.contents) :: contentsEntries others

end

mutual

theorem equals_iff : (left right : Tree) → left.hasNan = false →
    (left.equals right = true ↔ left.contents = right.contents)
  | .scalar _ value, .scalar _ value', proper => by
      simp only [equals, contents, scalar.injEq, true_and]
      exact Scalar.equals_iff proper
  | .vector _ elements, .vector _ elements', proper => by
      simp only [equals, contents, vector.injEq, true_and]
      exact equalsAll_iff elements elements' proper
  | .dict _ entries, .dict _ entries', proper => by
      simp only [equals, contents, dict.injEq, true_and]
      exact equalsEntries_iff entries entries' proper
  | .scalar _ _, .vector _ _, _ => by simp [equals, contents]
  | .scalar _ _, .dict _ _, _ => by simp [equals, contents]
  | .vector _ _, .scalar _ _, _ => by simp [equals, contents]
  | .vector _ _, .dict _ _, _ => by simp [equals, contents]
  | .dict _ _, .scalar _ _, _ => by simp [equals, contents]
  | .dict _ _, .vector _ _, _ => by simp [equals, contents]

theorem equalsAll_iff : (lefts rights : List Tree) → hasNanAll lefts = false →
    (equalsAll lefts rights = true ↔ contentsAll lefts = contentsAll rights)
  | [], [], _ => by simp [equalsAll]
  | [], _ :: _, _ => by simp [equalsAll, contentsAll]
  | _ :: _, [], _ => by simp [equalsAll, contentsAll]
  | left :: lefts, right :: rights, proper => by
      rw [hasNanAll, Bool.or_eq_false_iff] at proper
      rw [equalsAll, contentsAll, contentsAll, Bool.and_eq_true, List.cons.injEq,
        equals_iff left right proper.1, equalsAll_iff lefts rights proper.2]

theorem equalsEntries_iff : (lefts rights : List (Tree × Tree)) → hasNanEntries lefts = false →
    (equalsEntries lefts rights = true ↔ contentsEntries lefts = contentsEntries rights)
  | [], [], _ => by simp [equalsEntries]
  | [], _ :: _, _ => by simp [equalsEntries, contentsEntries]
  | _ :: _, [], _ => by simp [equalsEntries, contentsEntries]
  | (key, value) :: lefts, (key', value') :: rights, proper => by
      rw [hasNanEntries, Bool.or_eq_false_iff, Bool.or_eq_false_iff] at proper
      rw [equalsEntries, contentsEntries, contentsEntries, Bool.and_eq_true, Bool.and_eq_true,
        List.cons.injEq, Prod.mk.injEq, equals_iff key key' proper.1.1,
        equals_iff value value' proper.1.2, equalsEntries_iff lefts rights proper.2]

end

end Tree

/-! ## Objects -/

namespace Heap

variable {heap : Heap} {left right : Address} {slots handles : Multiset Address}

/-- Objects are equal if they are one, or if their payloads agree position by position. -/
theorem AcyclicFrom.equals_eq (acyclic : heap.AcyclicFrom left) (right : Address) :
    heap.equals left right =
      (left == right || agree heap.equals (heap.payload? left) (heap.payload? right)) := by
  have deep : heap.cells.size < (heap.cells.size + 1) * (heap.cells.size + 1) :=
    Nat.lt_of_lt_of_le (Nat.lt_succ_self _) (Nat.le_mul_self _)
  rw [equals, acyclic.endsWithin.equalWithin_eq deep (Nat.lt_succ_of_lt deep), equalWithin_succ]
  rfl

/-- Equality is an equivalence.  It is decided by the payloads at every level, unless the
objects there are one, and for objects without NaN by their contents. -/
structure ComparesStructurally (heap : Heap) : Prop where
  reflexive : ∀ address, heap.equals address address = true
  symmetric : ∀ {left right}, heap.equals left right = true → heap.equals right left = true
  transitive : ∀ {first second third}, heap.equals first second = true →
    heap.equals second third = true → heap.equals first third = true
  unfolds : ∀ {left}, heap.AcyclicFrom left → ∀ right, heap.equals left right =
    (left == right || agree heap.equals (heap.payload? left) (heap.payload? right))
  contents : ∀ {left right}, heap.payload? left ≠ none → heap.payload? right ≠ none →
    heap.AcyclicFrom left → heap.AcyclicFrom right →
      (heap.tree left).hasNan = false → (heap.tree right).hasNan = false →
        (heap.equals left right = true ↔ (heap.tree left).contents = (heap.tree right).contents)

theorem equality_structural (balanced : heap.Balanced slots handles) :
    heap.ComparesStructurally where
  reflexive := heap.equals_self
  symmetric same := (heap.equals_comm _ _).trans same
  transitive := equals_trans
  unfolds := AcyclicFrom.equals_eq
  contents := by
    intro left right alive alive' acyclic acyclic' proper proper'
    have depicts := balanced.depicts acyclic.endsWithin alive
    have depicts' := balanced.depicts acyclic'.endsWithin alive'
    rw [acyclic.endsWithin.equals_eq depicts depicts' proper', Tree.equals_iff _ _ proper]

/-- Nothing holds itself if all that is held is older than its holder. -/
theorem acyclic_of_rising
    (rising : ∀ holder < heap.cells.size, ∀ payload ∈ heap.payload? holder,
      ∀ child ∈ payload.children, child < holder) : heap.Acyclic := by
  have falls : ∀ {holder descendant}, Relation.TransGen heap.Holds holder descendant →
      descendant < holder := by
    intro holder descendant path
    induction path with
    | single holds =>
        obtain ⟨payload, found, member⟩ := holds
        exact rising holder (lt_size_of_payload? found) payload found _ member
    | tail _ holds less =>
        obtain ⟨payload, found, member⟩ := holds
        exact (rising _ (lt_size_of_payload? found) payload found _ member).trans less
  exact fun address cycle => Nat.lt_irrefl _ (falls cycle)

/-- Two vectors with one NaN, and two vectors of different types with the two zeros. -/
def mixed : Heap :=
  let heap := (({} : Heap).newScalar (.float .nan)).2.retain 0
  let heap := ((heap.newVector .float [0]).2.newVector .float [0]).2
  let heap := ((heap.newScalar (.float (.zero false))).2.newVector .float [3]).2
  ((heap.newScalar (.float (.zero true))).2.newVector .args [5]).2

theorem mixed_balanced : mixed.Balanced 0 {6, 4, 2, 1} := by
  have crafting := Balanced.crafting 0 0
  have blank : ({} : Heap).Balanced (0 + 0) (0 + 0) := (Ledger.Balanced.blank none).heap
  have single : ∀ {heap : Heap} {element : Address} {handles : Multiset Address},
      heap.Balanced (0 + 0) (element ::ₘ handles + 0) → ∀ type : StaticType,
        (heap.newVector type [element]).2.Balanced (0 + 0)
          ((heap.newVector type [element]).1 ::ₘ handles + 0) :=
    fun balanced => crafting.newVector (by simpa using balanced)
  have shared : ((({} : Heap).newScalar (.float .nan)).2.retain 0).Balanced (0 + 0) (0 ::ₘ {0} + 0) :=
    (crafting.newScalar blank (.float .nan)).retain (by decide)
  have first := single shared .float
  rw [← Multiset.cons_zero, Multiset.cons_swap] at first
  have second := single first .float
  have positive := single (crafting.newScalar second (.float (.zero false))) .float
  exact single (crafting.newScalar positive (.float (.zero true))) .args

/-- Vectors that share their NaN are equal, and so are vectors with the two zeros. -/
theorem equality_structural_mixed :
    mixed.equals 1 2 = true ∧ mixed.equals 2 1 = true ∧ mixed.equals 4 6 = true := by
  have laws := equality_structural mixed_balanced
  have shared : mixed.equals 1 2 = true := by decide +kernel
  have acyclic : mixed.Acyclic := acyclic_of_rising (by decide)
  refine ⟨shared, laws.symmetric shared, ?_⟩
  refine (laws.contents (by decide) (by decide) (acyclic.from_root 4) (acyclic.from_root 6) ?_ ?_).mpr ?_
  · rfl
  · rfl
  · rfl

end Heap

end ScriptEngine
