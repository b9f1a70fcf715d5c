import Mathlib.Tactic.SplitIfs
import ScriptEngine.Number.Quantity

/-!
# Numeric equality of single-precision numbers

A number that is not NaN is determined by what its bits mean: the magnitudes of different
exponents lie in different ranges.  So two such numbers agree exactly if their bits are the
same, or both are zeros, which may differ in sign.
-/

namespace ScriptEngine

namespace Binary32

/-- Magnitudes with different exponents differ. -/
theorem shifted_injective {exponent exponent' fraction fraction' : Nat}
    (small : fraction < leadingBit) (small' : fraction' < leadingBit)
    (same : (leadingBit + fraction) <<< exponent = (leadingBit + fraction') <<< exponent') :
    exponent = exponent' ∧ fraction = fraction' := by
  have below : ∀ {lower higher part part' : Nat}, part < leadingBit → lower < higher →
      (leadingBit + part) <<< lower < (leadingBit + part') <<< higher := by
    intro lower higher part part' inside less
    rw [Nat.shiftLeft_eq, Nat.shiftLeft_eq]
    calc (leadingBit + part) * 2 ^ lower < (leadingBit + leadingBit) * 2 ^ lower :=
          Nat.mul_lt_mul_of_pos_right (by omega) (Nat.two_pow_pos lower)
      _ = leadingBit * 2 ^ (lower + 1) := by
          rw [← Nat.mul_two, Nat.mul_assoc, Nat.mul_comm 2, ← Nat.pow_succ]
      _ ≤ leadingBit * 2 ^ higher :=
          Nat.mul_le_mul_left _ (Nat.pow_le_pow_right Nat.two_pos less)
      _ ≤ (leadingBit + part') * 2 ^ higher := Nat.mul_le_mul_right _ (Nat.le_add_right _ _)
  rcases Nat.lt_trichotomy exponent exponent' with less | rfl | less
  · exact absurd same (Nat.ne_of_lt (below small less))
  · rw [Nat.shiftLeft_eq, Nat.shiftLeft_eq] at same
    have equal := Nat.eq_of_mul_eq_mul_right (Nat.two_pow_pos exponent) same
    exact ⟨rfl, Nat.add_left_cancel equal⟩
  · exact absurd same (Nat.ne_of_gt (below small' less))

/-- The magnitude of a pattern is at least as large as its leading bit if there is an exponent. -/
theorem leadingBit_le_shifted (fraction exponent : Nat) :
    leadingBit ≤ (leadingBit + fraction) <<< exponent := by
  rw [Nat.shiftLeft_eq]
  calc leadingBit ≤ leadingBit + fraction := Nat.le_add_right _ _
    _ ≤ (leadingBit + fraction) * 2 ^ exponent := Nat.le_mul_of_pos_right _ (Nat.two_pow_pos _)

theorem eq_of_parts {left right : Binary32} (sign : left.isNegative = right.isNegative)
    (magnitude : left.bits.toNat % signBit = right.bits.toNat % signBit) : left = right := by
  have bound := left.bits.toNat_lt
  have bound' := right.bits.toNat_lt
  simp only [isNegative, decide_eq_decide] at sign
  unfold signBit at sign magnitude
  have same : left.bits.toNat = right.bits.toNat := by omega
  cases left
  cases right
  rw [mk.injEq]
  exact UInt32.toNat_inj.mp same

/-- What a number means determines its bits, NaN apart. -/
theorem meaning_injective {left right : Binary32} (proper : left.meaning ≠ .nan)
    (same : left.meaning = right.meaning) : left = right := by
  have divided := Nat.div_add_mod (left.bits.toNat % signBit) leadingBit
  have divided' := Nat.div_add_mod (right.bits.toNat % signBit) leadingBit
  have small := Nat.mod_lt (left.bits.toNat % signBit) (show leadingBit > 0 by decide)
  have small' := Nat.mod_lt (right.bits.toNat % signBit) (show leadingBit > 0 by decide)
  simp only [meaning] at same proper
  generalize left.bits.toNat % signBit / leadingBit = exponent at *
  generalize right.bits.toNat % signBit / leadingBit = exponent' at *
  generalize left.bits.toNat % signBit % leadingBit = fraction at *
  generalize right.bits.toNat % signBit % leadingBit = fraction' at *
  have parts : left.isNegative = right.isNegative ∧ exponent = exponent' ∧ fraction = fraction' := by
    have large := leadingBit_le_shifted fraction (exponent - 1)
    have large' := leadingBit_le_shifted fraction' (exponent' - 1)
    split_ifs at same proper
    all_goals simp only [reduceCtorEq, Meaning.infinite.injEq, Meaning.finite.injEq, ne_eq,
      not_true_eq_false] at same proper
    · exact ⟨same, by omega, by omega⟩
    · exact ⟨same.1, by omega, same.2⟩
    · omega
    · omega
    · have equal := shifted_injective small small' same.2
      exact ⟨same.1, by omega, equal.2⟩
  obtain ⟨sign, rfl, rfl⟩ := parts
  exact eq_of_parts sign (divided.symm.trans divided')

/-- The number without the sign of a zero. -/
def unsignedZero (number : Binary32) : Binary32 :=
  if number.meaning = .finite true 0 then zero false else number

theorem isNaN_eq_false_iff {number : Binary32} :
    number.isNaN = false ↔ number.meaning ≠ .nan := by
  unfold isNaN
  split
  · simp_all
  · simp_all

end Binary32

theorem Quantity.compare_eq_iff {left right : Quantity} :
    left.compare right = some .eq ↔ left = right ∧ left ≠ .nan := by
  cases left <;> cases right <;> simp [compare]

namespace Binary32

theorem meaning_unsignedZero (number : Binary32) :
    number.unsignedZero.meaning =
      if number.meaning = .finite true 0 then .finite false 0 else number.meaning := by
  unfold unsignedZero
  split
  · decide
  · rfl

/-- Magnitudes with signs are the same integer only if they are the same, zero apart. -/
theorem signedUnits_inj {sign sign' : Bool} {units units' : Nat} :
    signedUnits sign units = signedUnits sign' units' ↔
      units = units' ∧ (sign = sign' ∨ units = 0) := by
  unfold signedUnits
  cases sign <;> cases sign' <;> simp <;> omega

/-- Numbers are compared by sign and magnitude, and a zero has no sign then. -/
theorem ofBinary32_eq_iff {left right : Binary32} :
    Quantity.ofBinary32 left = Quantity.ofBinary32 right ↔
      left.unsignedZero.meaning = right.unsignedZero.meaning := by
  rw [meaning_unsignedZero, meaning_unsignedZero]
  unfold Quantity.ofBinary32
  cases left.meaning with
  | nan => cases right.meaning <;> grind
  | infinite sign => cases right.meaning <;> grind
  | finite sign units =>
      cases right.meaning with
      | nan => grind
      | infinite sign' => grind
      | finite sign' units' =>
          simp only [Quantity.units.injEq, signedUnits_inj, Meaning.finite.injEq]
          grind

/-- Numbers agree if nothing but the signs of zeros tells them apart. -/
theorem agrees_iff {left right : Binary32} (proper : left.isNaN = false) :
    left.agrees right = true ↔ left.unsignedZero = right.unsignedZero := by
  rw [isNaN_eq_false_iff] at proper
  have known : left.unsignedZero.meaning ≠ .nan := by
    rw [meaning_unsignedZero]
    split
    · simp
    · exact proper
  have ordered : Quantity.ofBinary32 left ≠ .nan := by
    unfold Quantity.ofBinary32
    split <;> simp_all
  rw [agrees, beq_iff_eq, Quantity.compare_eq_iff, ofBinary32_eq_iff]
  constructor
  · rintro ⟨same, _⟩
    exact meaning_injective known same
  · intro same
    exact ⟨congrArg meaning same, ordered⟩

end Binary32

end ScriptEngine
