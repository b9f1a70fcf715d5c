import ScriptEngine.Interpreter.Expression

/-!
# Causes of failure

Operations on values and places fail for reasons of their own.  None of them
takes part in the depth of calls, or looks for the type of a node.
-/

namespace ScriptEngine

variable {α β : Type}

/-- A cause that has nothing to do with the depth of calls. -/
def Cause.Ordinary (cause : Cause) : Prop :=
  ∀ limit, cause ≠ .stackOverflow limit

/-- A cause that can come of values and places alone. -/
def Cause.Operational : Cause → Prop
  | .stackOverflow _ | .missingType _ => False
  | _ => True

theorem Cause.Operational.ordinary {cause : Cause} (operational : cause.Operational) :
    cause.Ordinary := by
  rintro limit rfl
  exact operational

/-- A result, or an operational reason for not having one. -/
def OperationalFailure (result : Except Cause α) : Prop :=
  ∀ cause, result = .error cause → cause.Operational

namespace OperationalFailure

theorem ok (value : α) : OperationalFailure (.ok value) := nofun

theorem error {cause : Cause} (operational : cause.Operational) :
    OperationalFailure (.error cause : Except Cause α) := by
  intro other same
  rwa [← Except.error.inj same]

theorem map {result : Except Cause α} (operational : OperationalFailure result) (view : α → β) :
    OperationalFailure (result.map view) := by
  cases result with
  | ok value => exact ok (view value)
  | error cause => exact error (operational cause rfl)

/-! ## Operators -/

theorem narrowed (word? : Option α) {cause : Cause} (operational : cause.Operational) :
    OperationalFailure
      (match word? with
        | some word => .ok word
        | none => .error cause) := by
  cases word? with
  | some word => exact ok word
  | none => exact error operational

theorem integerArithmetic (narrow? : Int → Option α) (operator : ArithmeticOperator)
    (left right : Int) : OperationalFailure (integerArithmetic narrow? operator left right) := by
  have overflow : (Cause.integerOverflow operator.operation).Operational := trivial
  cases operator with
  | add => exact narrowed _ overflow
  | subtract => exact narrowed _ overflow
  | multiply => exact narrowed _ overflow
  | divide =>
      unfold ScriptEngine.integerArithmetic
      by_cases zero : right = 0
      · simp only [if_pos zero]
        exact error trivial
      · simp only [if_neg zero]
        exact narrowed _ overflow
  | remainder =>
      unfold ScriptEngine.integerArithmetic
      by_cases zero : right = 0
      · simp only [if_pos zero]
        exact error trivial
      · simp only [if_neg zero]
        split
        · exact narrowed _ overflow
        · rename_i cause failed
          exact error (narrowed _ overflow cause failed)

theorem unsuitable (symbol : String) (left right : Kind) :
    (unsuitable symbol left right).Operational := by
  unfold ScriptEngine.unsuitable
  split
  · trivial
  · trivial

theorem arithmetic (operator : ArithmeticOperator) (left right : Payload) :
    OperationalFailure (arithmetic operator left right) := by
  unfold ScriptEngine.arithmetic
  split
  · exact (integerArithmetic _ _ _ _).map _
  · exact (integerArithmetic _ _ _ _).map _
  · exact ok _
  · split
    · exact ok _
    · exact error (unsuitable _ _ _)
  · exact error (unsuitable _ _ _)

theorem unaryResult (operator : UnaryOperator) (operand : Payload) :
    OperationalFailure (unaryResult operator operand) := by
  unfold ScriptEngine.unaryResult
  split
  · exact ok _
  · exact ok _
  · exact ok _
  · split
    · exact ok _
    · exact error trivial
  · exact ok _
  · exact ok _
  · exact error trivial

theorem sameKind (payload : Payload) (target : StaticType) :
    OperationalFailure (sameKind payload target) := by
  unfold ScriptEngine.sameKind
  split
  · exact ok _
  · exact error trivial

theorem conversion (payload : Payload) (target : StaticType) :
    OperationalFailure (conversion payload target) := by
  unfold ScriptEngine.conversion
  split
  · exact ok _
  · split
    · exact ok _
    · exact sameKind _ _
  · split
    · exact ok _
    · exact error trivial
  · split
    · exact ok _
    · exact error trivial
  · exact ok _
  · exact ok _
  · split
    · exact ok _
    · exact error trivial
  · exact sameKind _ _

theorem comparison (heap : Heap) (operator : ComparisonOperator) (left right : Address) :
    OperationalFailure (heap.comparison operator left right) := by
  unfold Heap.comparison
  split
  · exact ok _
  · split
    · exact ok _
    · exact ok _
    · exact error trivial

/-! ## Elements and places -/

theorem vectorPosition (key : Payload) (length : Nat) :
    OperationalFailure (vectorPosition key length) := by
  have checked : ∀ number : Int, OperationalFailure
      (if 0 ≤ number ∧ number < length then Except.ok number.toNat
        else .error (.indexOutOfRange (toString number) length)) := by
    intro number
    split
    · exact ok _
    · exact error trivial
  unfold ScriptEngine.vectorPosition
  split
  · exact checked _
  · exact checked _
  · exact error trivial

theorem spot (heap : Heap) (container key : Address) :
    OperationalFailure (heap.spot container key) := by
  unfold Heap.spot
  split
  · split
    · exact (vectorPosition _ _).map _
    · exact error trivial
  · split
    · exact ok _
    · exact ok _
  · exact error trivial

theorem valueAt (heap : Heap) (container key : Address) :
    OperationalFailure (heap.valueAt container key) := by
  unfold Heap.valueAt
  split
  · rename_i cause failed
    exact error (spot heap container key cause failed)
  · split
    · exact ok _
    · exact error trivial
  · split
    · exact ok _
    · exact error trivial
  · exact error trivial

theorem readElement (heap : Heap) (container key : Address) :
    OperationalFailure (heap.readElement container key).1 := by
  unfold Heap.readElement
  split
  · rename_i cause failed
    exact error (valueAt heap container key cause failed)
  · exact ok _

theorem locate (heap : Heap) (container key : Address) (access : Access) :
    OperationalFailure (heap.locate container key access).1 := by
  unfold Heap.locate
  split
  · rename_i cause failed
    exact error (spot heap container key cause failed)
  · exact ok _
  · exact ok _
  · split
    · exact error trivial
    · exact ok _

theorem load (place : Place) (scopes : Scopes) (heap : Heap) :
    OperationalFailure (place.load scopes heap) := by
  unfold Place.load
  split
  · split
    · exact ok _
    · exact error trivial
  · split
    · split
      · exact ok _
      · exact error trivial
    · exact error trivial
  · split
    · split
      · exact ok _
      · exact error trivial
    · exact error trivial

theorem store (place : Place) (scopes : Scopes) (heap : Heap) (value : Address) :
    OperationalFailure (place.store scopes heap value).1 := by
  unfold Place.store
  split
  · rename_i cause failed
    exact error (load place scopes heap cause failed)
  · exact ok _

end OperationalFailure

end ScriptEngine
