import Mathlib.Data.String.Basic
import Mathlib.Order.BooleanAlgebra.Basic
import ScriptEngine.Operation.Comparison
import ScriptEngine.Proofs.Ownership.Keys

/-!
# The order behind comparison

Words of either width denote integers, and strings are lists of code points.  The
comparison operators ask what their names say of these.  Whatever two objects are, the
operators agree with one another: to swap the operands is to mirror the operator, and
only the kinds of the operands decide whether there is an order at all.
-/

namespace ScriptEngine

/-! ## Operators on a linear order -/

namespace ComparisonOperator

/-- What an operator asks of two members of a linear order. -/
def Holds {α : Type} [LinearOrder α] : ComparisonOperator → α → α → Prop
  | .equal, left, right => left = right
  | .notEqual, left, right => left ≠ right
  | .less, left, right => left < right
  | .lessOrEqual, left, right => left ≤ right
  | .greater, left, right => right < left
  | .greaterOrEqual, left, right => right ≤ left

instance {α : Type} [LinearOrder α] (operator : ComparisonOperator) (left right : α) :
    Decidable (operator.Holds left right) :=
  match operator with
  | .equal => inferInstanceAs (Decidable (left = right))
  | .notEqual => inferInstanceAs (Decidable (left ≠ right))
  | .less => inferInstanceAs (Decidable (left < right))
  | .lessOrEqual => inferInstanceAs (Decidable (left ≤ right))
  | .greater => inferInstanceAs (Decidable (right < left))
  | .greaterOrEqual => inferInstanceAs (Decidable (right ≤ left))

/-- The operator that asks the same of the swapped operands. -/
def mirrored : ComparisonOperator → ComparisonOperator
  | .equal => .equal
  | .notEqual => .notEqual
  | .less => .greater
  | .lessOrEqual => .greaterOrEqual
  | .greater => .less
  | .greaterOrEqual => .lessOrEqual

theorem accepts_compare {α : Type} [LinearOrder α] (operator : ComparisonOperator)
    (left right : α) :
    operator.accepts (some (compare left right)) = decide (operator.Holds left right) := by
  rcases lt_trichotomy left right with less | rfl | greater
  · rw [compare_lt_iff_lt.mpr less]
    cases operator <;> simp [accepts, Holds, less, less.ne, less.le, less.not_gt, less.not_ge]
  · rw [compare_eq_iff_eq.mpr rfl]
    cases operator <;> simp [accepts, Holds]
  · rw [compare_gt_iff_gt.mpr greater]
    cases operator <;> simp [accepts, Holds, greater, greater.ne', greater.le, greater.not_gt, greater.not_ge]

theorem accepts_mirrored (operator : ComparisonOperator) (ordering : Option Ordering) :
    operator.mirrored.accepts (ordering.map Ordering.swap) = operator.accepts ordering := by
  cases ordering with
  | none => cases operator <;> rfl
  | some order => cases operator <;> cases order <;> rfl

theorem accepts_lessOrEqual (ordering : Option Ordering) :
    accepts .lessOrEqual ordering = (accepts .less ordering || accepts .equal ordering) :=
  rfl

theorem holds_trans {α : Type} [LinearOrder α] {operator : ComparisonOperator}
    {first second third : α} (ordering : operator ≠ .notEqual)
    (one : operator.Holds first second) (other : operator.Holds second third) :
    operator.Holds first third := by
  cases operator with
  | equal => exact one.trans other
  | notEqual => exact absurd rfl ordering
  | less => exact one.trans other
  | lessOrEqual => exact one.trans other
  | greater => exact other.trans one
  | greaterOrEqual => exact other.trans one

end ComparisonOperator

theorem strictMono_toNat : StrictMono Bool.toNat := by
  intro left right less
  obtain ⟨rfl, rfl⟩ := Bool.lt_iff.mp less
  exact Nat.zero_lt_one

/-- What embeds one order in another keeps comparisons. -/
theorem compare_map {α β : Type} [LinearOrder α] [LinearOrder β] {embed : α → β}
    (mono : StrictMono embed) (left right : α) :
    compare (embed left) (embed right) = compare left right := by
  rw [← cmp_eq_compare, ← cmp_eq_compare, mono.cmp_map_eq]

/-! ## Scalars -/

/-- The code points of a string. -/
def codePoints (string : String) : List Nat :=
  string.toList.map Char.toNat

theorem strictMono_codePoints : StrictMono codePoints := by
  intro left right less
  have mapped : ∀ {characters others : List Char}, characters < others →
      characters.map Char.toNat < others.map Char.toNat := by
    intro characters others less
    induction less with
    | nil => exact .nil
    | cons _ induction => exact .cons induction
    | rel less => exact .rel less
  exact mapped (String.lt_iff_toList_lt.mp less)

/-- Operands of two such kinds can be ordered. -/
def Kind.Comparable (left right : Kind) : Prop :=
  (left.isNumeric = true ∧ right.isNumeric = true) ∨
    left = right ∧ (left = .string ∨ left = .char ∨ left = .bool)

theorem Kind.Comparable.symm {left right : Kind} (comparable : left.Comparable right) :
    right.Comparable left := by
  rcases comparable with ⟨one, other⟩ | ⟨rfl, ordered⟩
  · exact Or.inl ⟨other, one⟩
  · exact Or.inr ⟨rfl, ordered⟩

namespace Scalar

/-- The integer that a word denotes. -/
def integer? : Scalar → Option Int
  | .int word => some word.toInt
  | .usize word => some word.toNat
  | _ => Option.none

theorem ordering?_of_integers {left right : Scalar} {first second : Int}
    (one : left.integer? = some first) (other : right.integer? = some second) :
    left.ordering? right = some (some (compare first second)) := by
  cases left <;> cases one <;> cases right <;> cases other
  · rfl
  · rfl
  · rfl
  · rename_i left right
    rw [compare_map fun _ _ => Int.ofNat_lt.mpr]
    rfl

theorem ordering?_isSome_iff (left right : Scalar) :
    (left.ordering? right).isSome = true ↔ left.kind.Comparable right.kind := by
  cases left <;> cases right <;>
    simp [ordering?, isNumeric, Kind.Comparable, kind, Kind.isNumeric]

end Scalar

theorem Quantity.compare_swap (left right : Quantity) :
    right.compare left = (left.compare right).map Ordering.swap := by
  cases left with
  | nan => cases right <;> rfl
  | below => cases right <;> rfl
  | above => cases right <;> rfl
  | units count =>
      cases right with
      | nan => rfl
      | below => rfl
      | above => rfl
      | units other => exact congrArg some Std.OrientedOrd.eq_swap

/-- Every order is the opposite of that of the swapped operands; what has none has none
either way. -/
theorem Scalar.ordering?_swap (left right : Scalar) :
    right.ordering? left = (left.ordering? right).map (Option.map Ordering.swap) := by
  cases left <;> cases right <;>
    first
    | rfl
    | exact congrArg (fun order => some (some order)) Std.OrientedOrd.eq_swap
    | exact congrArg some (Quantity.compare_swap _ _)

/-! ## Objects -/

namespace Heap

variable {heap : Heap} {left right : Address}

/-- The integer that an object denotes, if it is a word. -/
def integer? (heap : Heap) (address : Address) : Option Int :=
  (heap.scalar? address).bind Scalar.integer?

theorem scalar?_eq_some_iff {address : Address} {scalar : Scalar} :
    heap.scalar? address = some scalar ↔ heap.payload? address = some (.scalar scalar) := by
  unfold scalar?
  split <;> simp_all

theorem comparison_of_ordering {order : Option Ordering}
    (ordered : heap.ordering? left right = some order) (operator : ComparisonOperator) :
    heap.comparison operator left right = .ok (operator.accepts order) := by
  unfold comparison
  rw [ordered]

theorem ordering?_of_scalars {first second : Scalar} (one : heap.scalar? left = some first)
    (other : heap.scalar? right = some second) :
    heap.ordering? left right = first.ordering? second := by
  rw [ordering?, one, other]

/-- Words are compared as the integers that they denote. -/
theorem comparison_of_integers {first second : Int} (one : heap.integer? left = some first)
    (other : heap.integer? right = some second) (operator : ComparisonOperator) :
    heap.comparison operator left right = .ok (decide (operator.Holds first second)) := by
  obtain ⟨word, found, denotes⟩ := Option.bind_eq_some_iff.mp one
  obtain ⟨word', found', denotes'⟩ := Option.bind_eq_some_iff.mp other
  rw [comparison_of_ordering ((ordering?_of_scalars found found').trans
    (Scalar.ordering?_of_integers denotes denotes')), operator.accepts_compare]

theorem kind_of_scalar? {value : Scalar} (found : heap.scalar? left = some value) :
    heap.kind left = value.kind := by
  unfold scalar? at found
  unfold kind
  split at found
  · rename_i present
    cases found
    rw [present]
    rfl
  · cases found

theorem scalar?_of_comparable (comparable : (heap.kind left).Comparable (heap.kind right)) :
    ∃ value, heap.scalar? left = some value := by
  have simple : heap.kind left ≠ .none ∧ heap.kind left ≠ .vector ∧ heap.kind left ≠ .dict := by
    refine ⟨?_, ?_, ?_⟩ <;> intro same <;>
      simp [same, Kind.Comparable, Kind.isNumeric] at comparable
  unfold scalar?
  unfold kind at simple
  cases found : heap.payload? left with
  | none => simp [found] at simple
  | some payload =>
      cases payload with
      | scalar value => exact ⟨value, rfl⟩
      | vector _ => simp [found, Payload.kind] at simple
      | dict _ => simp [found, Payload.kind] at simple

/-- Whether there is an order is a matter of kinds. -/
theorem ordering?_isSome_iff (heap : Heap) (left right : Address) :
    (heap.ordering? left right).isSome = true ↔
      (heap.kind left).Comparable (heap.kind right) := by
  constructor
  · intro ordered
    unfold ordering? at ordered
    split at ordered
    · rename_i value value' found found'
      rw [kind_of_scalar? found, kind_of_scalar? found', ← value.ordering?_isSome_iff]
      exact ordered
    · simp at ordered
  · intro comparable
    obtain ⟨value, found⟩ := scalar?_of_comparable comparable
    obtain ⟨value', found'⟩ := scalar?_of_comparable comparable.symm
    rw [ordering?_of_scalars found found', value.ordering?_isSome_iff, ← kind_of_scalar? found,
      ← kind_of_scalar? found']
    exact comparable

theorem ordering?_swap (heap : Heap) (left right : Address) :
    heap.ordering? right left = (heap.ordering? left right).map (Option.map Ordering.swap) := by
  unfold ordering?
  cases heap.scalar? left with
  | none => cases heap.scalar? right <;> rfl
  | some value =>
      cases heap.scalar? right with
      | none => rfl
      | some value' => exact value.ordering?_swap value'

/-! ## Laws -/

/-- To swap the operands is to mirror the operator. -/
theorem comparison_mirrored (heap : Heap) (operator : ComparisonOperator) (left right : Address)
    (answer : Bool) :
    heap.comparison operator.mirrored right left = .ok answer ↔
      heap.comparison operator left right = .ok answer := by
  unfold comparison
  rw [ordering?_swap]
  cases heap.ordering? left right with
  | some order => simp only [Option.map_some, operator.accepts_mirrored]
  | none =>
      cases operator <;>
        simp only [Option.map_none, ComparisonOperator.mirrored, heap.equals_comm right left,
          reduceCtorEq]

/-- What has no order knows only equality. -/
theorem comparison_error_iff {operator : ComparisonOperator} {cause : Cause} :
    heap.comparison operator left right = .error cause ↔
      operator.isEquality = false ∧ ¬ (heap.kind left).Comparable (heap.kind right) ∧
        cause = .operandMismatch operator.symbol (heap.kind left).name
          (heap.kind right).name := by
  rw [← ordering?_isSome_iff]
  unfold comparison
  cases heap.ordering? left right with
  | some order => simp
  | none => cases operator <;> simp [ComparisonOperator.isEquality, eq_comm]

theorem comparison_notEqual (heap : Heap) (left right : Address) :
    heap.comparison .notEqual left right =
      (heap.comparison .equal left right).map fun equal => !equal := by
  unfold comparison
  cases heap.ordering? left right <;> rfl

theorem comparison_lessOrEqual {answer : Bool}
    (compared : heap.comparison .lessOrEqual left right = .ok answer) :
    ∃ less equal, heap.comparison .less left right = .ok less ∧
      heap.comparison .equal left right = .ok equal ∧ answer = (less || equal) := by
  unfold comparison at compared ⊢
  cases ordered : heap.ordering? left right with
  | none => simp [ordered] at compared
  | some order =>
      rw [ordered] at compared
      cases compared
      exact ⟨_, _, rfl, rfl, ComparisonOperator.accepts_lessOrEqual order⟩

/-- Comparison is one consistent order on what can be ordered, and equality on all. -/
structure OrdersConsistently (heap : Heap) : Prop where
  /-- Words of either width are compared as integers. -/
  integers : ∀ {left right : Address} {first second : Int}, heap.integer? left = some first →
    heap.integer? right = some second → ∀ operator,
      heap.comparison operator left right = .ok (decide (operator.Holds first second))
  total : ∀ {left right : Address}, (heap.integer? left).isSome → (heap.integer? right).isSome →
    heap.comparison .lessOrEqual left right = .ok true ∨
      heap.comparison .lessOrEqual right left = .ok true
  transitive : ∀ {left middle right : Address} {operator : ComparisonOperator},
    (heap.integer? left).isSome → (heap.integer? middle).isSome → (heap.integer? right).isSome →
      operator ≠ .notEqual → heap.comparison operator left middle = .ok true →
        heap.comparison operator middle right = .ok true →
          heap.comparison operator left right = .ok true
  /-- Strings are ordered as lists of code points, the first difference deciding. -/
  strings : ∀ {left right : Address} {first second : String},
    heap.scalar? left = some (.string first) → heap.scalar? right = some (.string second) →
      ∀ operator, heap.comparison operator left right =
        .ok (decide (operator.Holds (codePoints first) (codePoints second)))
  chars : ∀ {left right : Address} {first second : Char},
    heap.scalar? left = some (.char first) → heap.scalar? right = some (.char second) →
      ∀ operator, heap.comparison operator left right =
        .ok (decide (operator.Holds first.toNat second.toNat))
  bools : ∀ {left right : Address} {first second : Bool},
    heap.scalar? left = some (.bool first) → heap.scalar? right = some (.bool second) →
      ∀ operator, heap.comparison operator left right =
        .ok (decide (operator.Holds first second))
  negated : ∀ left right, heap.comparison .notEqual left right =
    (heap.comparison .equal left right).map fun equal => !equal
  /-- So `<` mirrors `>`, `<=` mirrors `>=`, and both equalities are symmetric. -/
  mirrored : ∀ operator left right answer,
    heap.comparison operator.mirrored right left = .ok answer ↔
      heap.comparison operator left right = .ok answer
  lessOrEqual : ∀ {left right : Address} {answer : Bool},
    heap.comparison .lessOrEqual left right = .ok answer →
      ∃ less equal, heap.comparison .less left right = .ok less ∧
        heap.comparison .equal left right = .ok equal ∧ answer = (less || equal)
  /-- Only an ordering operator fails, exactly on operands that are neither two numbers nor
  two strings, chars or truth values. -/
  fails : ∀ {operator : ComparisonOperator} {left right : Address} {cause : Cause},
    heap.comparison operator left right = .error cause ↔
      operator.isEquality = false ∧ ¬ (heap.kind left).Comparable (heap.kind right) ∧
        cause = .operandMismatch operator.symbol (heap.kind left).name (heap.kind right).name
  swapped : ∀ {operator : ComparisonOperator} {left right : Address} {cause : Cause},
    heap.comparison operator left right = .error cause →
      ∃ cause', heap.comparison operator right left = .error cause'

theorem comparison_consistent (heap : Heap) : heap.OrdersConsistently where
  integers := comparison_of_integers
  total := by
    intro left right one other
    obtain ⟨first, found⟩ := Option.isSome_iff_exists.mp one
    obtain ⟨second, found'⟩ := Option.isSome_iff_exists.mp other
    simp only [comparison_of_integers found found', comparison_of_integers found' found,
      Except.ok.injEq, decide_eq_true_eq]
    exact le_total first second
  transitive := by
    intro left middle right operator one two three ordering before after
    obtain ⟨first, found⟩ := Option.isSome_iff_exists.mp one
    obtain ⟨second, found'⟩ := Option.isSome_iff_exists.mp two
    obtain ⟨third, found''⟩ := Option.isSome_iff_exists.mp three
    simp only [comparison_of_integers found found', comparison_of_integers found' found'',
      comparison_of_integers found found'', Except.ok.injEq, decide_eq_true_eq] at before after ⊢
    exact ComparisonOperator.holds_trans ordering before after
  strings := by
    intro left right first second one other operator
    rw [comparison_of_ordering ((ordering?_of_scalars one other).trans rfl),
      ← compare_map strictMono_codePoints, operator.accepts_compare]
  chars := by
    intro left right first second one other operator
    rw [comparison_of_ordering ((ordering?_of_scalars one other).trans rfl),
      operator.accepts_compare]
  bools := by
    intro left right first second one other operator
    rw [comparison_of_ordering ((ordering?_of_scalars one other).trans rfl),
      compare_map strictMono_toNat, operator.accepts_compare]
  negated := heap.comparison_notEqual
  mirrored := heap.comparison_mirrored
  lessOrEqual := comparison_lessOrEqual
  fails := comparison_error_iff
  swapped := by
    intro operator left right cause failed
    obtain ⟨ordering, incomparable, _⟩ := comparison_error_iff.mp failed
    exact ⟨_, comparison_error_iff.mpr
      ⟨ordering, fun comparable => incomparable comparable.symm, rfl⟩⟩

/-- The signed word below zero and the largest unsigned word. -/
def extremeWords : Heap :=
  ((({} : Heap).newScalar (.int (-1))).2.newScalar (.usize 18446744073709551615)).2

theorem comparison_consistent_extreme :
    extremeWords.integer? 0 = some (-1) ∧
      extremeWords.integer? 1 = some 18446744073709551615 ∧
      extremeWords.comparison .less 0 1 = .ok true ∧
      extremeWords.comparison .greater 1 0 = .ok true := by
  have below : extremeWords.integer? 0 = some (-1) := by decide
  have above : extremeWords.integer? 1 = some 18446744073709551615 := by decide
  have laws := comparison_consistent extremeWords
  have less := laws.integers below above .less
  exact ⟨below, above, less, (laws.mirrored .less 0 1 true).mpr less⟩

end Heap

end ScriptEngine
