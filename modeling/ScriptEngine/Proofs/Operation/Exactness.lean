import ScriptEngine.Operation.Arithmetic
import ScriptEngine.Proofs.Operation.Orders

/-!
# Exact arithmetic of words

The words of a kind denote the integers of a range.  An operator computes the word of the
exact result if that is in the range, and fails otherwise.  Two things are not as one
might expect: a divisor must not be zero, and what has to be in the range for a remainder
is the quotient.
-/

namespace ScriptEngine

/-! ## Ranges -/

/-- The integers that words of a kind denote. -/
def Kind.Spans : Kind → Int → Prop
  | .int, number => -0x8000000000000000 ≤ number ∧ number < 0x8000000000000000
  | .usize, number => 0 ≤ number ∧ number < 0x10000000000000000
  | _, _ => False

instance (kind : Kind) (number : Int) : Decidable (kind.Spans number) := by
  cases kind <;> unfold Kind.Spans <;> infer_instance

theorem int64?_ne_none {number : Int} : int64? number ≠ none ↔ Kind.int.Spans number := by
  have lower := Int64.toInt_minValue
  have upper := Int64.toInt_maxValue
  unfold int64? Kind.Spans
  split <;> simp <;> omega

theorem uint64?_ne_none {number : Int} : uint64? number ≠ none ↔ Kind.usize.Spans number := by
  unfold uint64? Kind.Spans UInt64.size
  split <;> simp <;> omega

/-- A remainder lies between zero and the dividend. -/
theorem tmod_between (left right : Int) :
    (0 ≤ left.tmod right ∧ left.tmod right ≤ left) ∨
      (left ≤ left.tmod right ∧ left.tmod right ≤ 0) := by
  have smaller : (left.tmod right).natAbs ≤ left.natAbs := by
    rw [Int.natAbs_tmod]
    exact Nat.mod_le _ _
  rcases le_total 0 left with positive | negative
  · have sign := Int.tmod_nonneg right positive
    omega
  · have sign := Int.tmod_nonneg right (show 0 ≤ -left by omega)
    rw [Int.neg_tmod] at sign
    omega

theorem Kind.Spans.tmod {kind : Kind} {left : Int} (spans : kind.Spans left) (right : Int) :
    kind.Spans (left.tmod right) := by
  have between := tmod_between left right
  cases kind with
  | int | usize =>
      unfold Kind.Spans at spans ⊢
      omega
  | _ => exact spans.elim

/-! ## Operators -/

namespace ArithmeticOperator

/-- What an operator computes of integers: a quotient is truncated towards zero, and a
remainder has the sign of the dividend. -/
def exact : ArithmeticOperator → Int → Int → Int
  | .add, left, right => left + right
  | .subtract, left, right => left - right
  | .multiply, left, right => left * right
  | .divide, left, right => left.tdiv right
  | .remainder, left, right => left.tmod right

def divides : ArithmeticOperator → Bool
  | .divide | .remainder => true
  | .add | .subtract | .multiply => false

/-- What has to be in the range of the operands. -/
def bounded : ArithmeticOperator → Int → Int → Int
  | .remainder, left, right => left.tdiv right
  | operator, left, right => operator.exact left right

/-- An operator has a result in the range of its operands. -/
def Fits (operator : ArithmeticOperator) (kind : Kind) (left right : Int) : Prop :=
  (operator.divides = true → right ≠ 0) ∧ kind.Spans (operator.bounded left right)

instance (operator : ArithmeticOperator) (kind : Kind) (left right : Int) :
    Decidable (operator.Fits kind left right) := by
  unfold Fits
  infer_instance

/-- Why an operator has no result. -/
def cause (operator : ArithmeticOperator) (right : Int) : Cause :=
  match operator, right with
  | .divide, 0 => .divisionByZero
  | .remainder, 0 => .moduloByZero
  | operator, _ => .integerOverflow operator.operation

/-- An operator that has a result has it in the range. -/
theorem Fits.exact {operator : ArithmeticOperator} {kind : Kind} {left right : Int}
    (fits : operator.Fits kind left right) (inside : kind.Spans left) :
    kind.Spans (operator.exact left right) := by
  cases operator with
  | remainder => exact inside.tmod right
  | _ => exact fits.2

end ArithmeticOperator

section

variable {α : Type} {narrow? : Int → Option α} {kind : Kind} {operator : ArithmeticOperator}
  {left right : Int} (narrows : ∀ {number}, narrow? number ≠ none ↔ kind.Spans number)
include narrows

theorem integerArithmetic_of_fits (inside : kind.Spans left)
    (fits : operator.Fits kind left right) :
    ∃ word, integerArithmetic narrow? operator left right = .ok word ∧
      narrow? (operator.exact left right) = some word := by
  obtain ⟨word, narrowed⟩ := Option.ne_none_iff_exists'.mp (narrows.mpr (fits.exact inside))
  obtain ⟨bound, bounded⟩ := Option.ne_none_iff_exists'.mp (narrows.mpr fits.2)
  refine ⟨word, ?_, narrowed⟩
  obtain ⟨nonzero, _⟩ := fits
  cases operator <;>
    simp_all [integerArithmetic, ArithmeticOperator.exact, ArithmeticOperator.bounded,
      ArithmeticOperator.divides]

theorem integerArithmetic_of_not_fits (fails : ¬ operator.Fits kind left right) :
    integerArithmetic narrow? operator left right = .error (operator.cause right) := by
  by_cases zero : operator.divides = true ∧ right = 0
  · obtain ⟨divides, rfl⟩ := zero
    cases operator with
    | divide | remainder => rfl
    | add | subtract | multiply => cases divides
  · have beyond : ¬ kind.Spans (operator.bounded left right) := by
      intro spans
      exact fails ⟨fun divides none => zero ⟨divides, none⟩, spans⟩
    have narrowed : narrow? (operator.bounded left right) = none :=
      Decidable.not_not.mp (mt narrows.mp beyond)
    cases operator <;>
      simp_all [integerArithmetic, ArithmeticOperator.exact, ArithmeticOperator.bounded,
        ArithmeticOperator.divides, ArithmeticOperator.cause]

end

/-! ## Words -/

namespace Scalar

variable {kind : Kind} {operator : ArithmeticOperator} {left right : Scalar} {first second : Int}

/-- A scalar of a kind that denotes an integer. -/
def Denotes (kind : Kind) (scalar : Scalar) (number : Int) : Prop :=
  scalar.kind = kind ∧ scalar.integer? = some number

theorem Denotes.spans {scalar : Scalar} {number : Int} (denotes : scalar.Denotes kind number) :
    kind.Spans number := by
  obtain ⟨rfl, denotes⟩ := denotes
  cases scalar with
  | int word =>
      cases denotes
      exact ⟨word.le_toInt, word.toInt_lt⟩
  | usize word =>
      cases denotes
      have bound := word.toNat_lt
      unfold Kind.Spans kind
      omega
  | _ => cases denotes

/-- Arithmetic of words of one kind is exact, or fails. -/
theorem Denotes.arithmetic (one : left.Denotes kind first) (other : right.Denotes kind second) :
    (operator.Fits kind first second →
      ∃ result, ScriptEngine.arithmetic operator (.scalar left) (.scalar right) = .ok result ∧
        result.Denotes kind (operator.exact first second)) ∧
    (¬ operator.Fits kind first second →
      ScriptEngine.arithmetic operator (.scalar left) (.scalar right) =
        .error (operator.cause second)) := by
  have inside := one.spans
  obtain ⟨rfl, one⟩ := one
  obtain ⟨same, other⟩ := other
  cases left with
  | int left =>
      cases right with
      | int right =>
          cases one
          cases other
          constructor
          · intro fits
            obtain ⟨word, computed, narrowed⟩ :=
              integerArithmetic_of_fits int64?_ne_none inside fits
            refine ⟨.int word, by simp [ScriptEngine.arithmetic, computed, Except.map], rfl, ?_⟩
            simp [integer?, int64?_toInt narrowed]
          · intro fails
            simp [ScriptEngine.arithmetic, integerArithmetic_of_not_fits int64?_ne_none fails,
              Except.map]
      | _ => cases same
  | usize left =>
      cases right with
      | usize right =>
          cases one
          cases other
          constructor
          · intro fits
            obtain ⟨word, computed, narrowed⟩ :=
              integerArithmetic_of_fits uint64?_ne_none inside fits
            refine ⟨.usize word, by simp [ScriptEngine.arithmetic, computed, Except.map], rfl, ?_⟩
            simp [integer?, uint64?_toNat narrowed]
          · intro fails
            simp [ScriptEngine.arithmetic, integerArithmetic_of_not_fits uint64?_ne_none fails,
              Except.map]
      | _ => cases same
  | _ => cases one

end Scalar

end ScriptEngine
