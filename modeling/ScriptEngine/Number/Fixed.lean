/-!
# Fixed-width integers

The integers that a signed or unsigned 64-bit word can hold.
-/

namespace ScriptEngine

/-- The signed word of an integer, if it has one. -/
def int64? (number : Int) : Option Int64 :=
  if Int64.minValue.toInt ≤ number ∧ number ≤ Int64.maxValue.toInt then
    some (Int64.ofInt number)
  else none

/-- The unsigned word of an integer, if it has one. -/
def uint64? (number : Int) : Option UInt64 :=
  if 0 ≤ number ∧ number.toNat < UInt64.size then some (UInt64.ofNat number.toNat) else none

theorem int64?_toInt {number : Int} {word : Int64} (narrowed : int64? number = some word) :
    word.toInt = number := by
  unfold int64? at narrowed
  split at narrowed
  · rename_i bounds
    cases narrowed
    have lower := Int64.toInt_minValue
    have upper := Int64.toInt_maxValue
    exact Int64.toInt_ofInt_of_le (by omega) (by omega)
  · cases narrowed

theorem uint64?_toNat {number : Int} {word : UInt64}
    (narrowed : uint64? number = some word) : (word.toNat : Int) = number := by
  unfold uint64? at narrowed
  split at narrowed
  · rename_i bounds
    cases narrowed
    rw [UInt64.toNat_ofNat_of_lt' bounds.2]
    omega
  · cases narrowed

end ScriptEngine
