import ScriptEngine.Builtin.Inspection
import ScriptEngine.Proofs.Accounting.Ledger

/-!
# Lawful built-in functions

A lawful function makes new values, or hands back an argument or an element
of one; it never touches what exists already.  A function that is not careless
makes values in no other ways than runs do.
-/

namespace ScriptEngine

/-- What a call with the given arguments may leave behind. -/
def BuiltinResult.Lawful (result : BuiltinResult) (arguments : List Address) (heap : Heap) :
    Prop :=
  match result.value with
  | .ok value =>
      Heap.Crafted heap 0 result.heap {value} ∨
        heap.Within value arguments ∧ result.heap = heap.retain value
  | .error _ => Heap.Crafted heap 0 result.heap 0

/-- What a call may leave behind if its values are made in ways that are allowed. -/
def BuiltinResult.Abides (careless : Prop) (result : BuiltinResult) (arguments : List Address)
    (heap : Heap) : Prop :=
  match result.value with
  | .ok value =>
      Heap.Makes careless heap 0 result.heap {value} ∨
        heap.Within value arguments ∧ result.heap = heap.retain value
  | .error _ => Heap.Makes careless heap 0 result.heap 0

namespace BuiltinResult

variable {careless : Prop} {result : BuiltinResult} {arguments : List Address} {heap : Heap}

theorem Abides.lawful (abides : result.Abides careless arguments heap) :
    result.Lawful arguments heap := by
  obtain ⟨value, after, output⟩ := result
  cases value with
  | ok value => exact abides.imp_left Heap.Makes.crafted
  | error failure => exact abides.crafted

theorem Lawful.abides (lawful : result.Lawful arguments heap) :
    result.Abides True arguments heap := by
  obtain ⟨value, after, output⟩ := result
  cases value with
  | ok value => exact lawful.imp_left fun crafted => ⟨crafted, Or.inl trivial⟩
  | error failure => exact ⟨lawful, Or.inl trivial⟩

variable (output : Output)

theorem abides_scalar (value : Scalar) :
    (Builtin.computed (heap.newScalar value) output).Abides careless arguments heap :=
  Or.inl (Heap.Fashioned.newScalar heap value).makes

theorem abides_failure (failure : Failure) :
    BuiltinResult.Abides careless ⟨.error failure, heap, output⟩ arguments heap :=
  (Heap.Fashioned.refl heap 0).makes

theorem abides_handBack {value : Address} (within : heap.Within value arguments) :
    (Builtin.computed (value, heap.retain value) output).Abides careless arguments heap :=
  Or.inr ⟨within, rfl⟩

end BuiltinResult

def Builtin.Lawful (builtin : Builtin) : Prop :=
  ∀ arguments heap output, (builtin.action arguments heap output).Lawful arguments heap

def BuiltinTable.Lawful (table : BuiltinTable) : Prop :=
  ∀ builtin ∈ table.functions, builtin.Lawful

def Builtin.Abides (careless : Prop) (builtin : Builtin) : Prop :=
  ∀ arguments heap output, (builtin.action arguments heap output).Abides careless arguments heap

def BuiltinTable.Abides (careless : Prop) (table : BuiltinTable) : Prop :=
  ∀ builtin ∈ table.functions, builtin.Abides careless

namespace BuiltinTable

variable {careless : Prop} {table : BuiltinTable} {builtin : Builtin}

theorem Abides.lawful (abides : table.Abides careless) : table.Lawful :=
  fun builtin member arguments heap output => (abides builtin member arguments heap output).lawful

theorem Lawful.abides (lawful : table.Lawful) : table.Abides True :=
  fun builtin member arguments heap output => (lawful builtin member arguments heap output).abides

theorem Abides.of_get? (abides : table.Abides careless) {name : String}
    (found : table.get? name = some builtin) : builtin.Abides careless :=
  abides builtin (List.mem_of_find?_eq_some found)

theorem Abides.register (abides : table.Abides careless) (added : builtin.Abides careless) :
    (table.register builtin).Abides careless := by
  intro other member
  rw [BuiltinTable.register, List.mem_cons] at member
  rcases member with rfl | kept
  · exact added
  · exact abides other (List.mem_of_mem_filter kept)

theorem Abides.registerAll (abides : table.Abides careless) {builtins : List Builtin}
    (added : ∀ builtin ∈ builtins, builtin.Abides careless) :
    (builtins.foldl BuiltinTable.register table).Abides careless := by
  induction builtins generalizing table with
  | nil => exact abides
  | cons first others induction =>
      apply induction
      · exact abides.register (added first List.mem_cons_self)
      · intro builtin member
        exact added builtin (List.mem_cons_of_mem first member)

end BuiltinTable

namespace Builtin

open BuiltinResult

variable {careless : Prop}

/-! ## The functions there are -/

theorem invoke_abides {builtin : Builtin} (abides : builtin.Abides careless)
    (arguments : List Address) (heap : Heap) (output : Output) :
    (builtin.invoke arguments heap output).Abides careless arguments heap := by
  unfold invoke
  split
  · exact abides arguments heap output
  · exact abides_failure output _

theorem write_abides (ending : String) (arguments : List Address) (heap : Heap)
    (output : Output) : (write ending arguments heap output).Abides careless arguments heap :=
  abides_scalar _ _

theorem unaryFunction_abides {name : String} {result : StaticType}
    {action : Address → Heap → Output → BuiltinResult}
    (abides : ∀ value others heap output,
      (action value heap output).Abides careless (value :: others) heap) :
    (unaryFunction name result action).Abides careless := by
  intro arguments heap output
  cases arguments with
  | nil => exact abides_failure output _
  | cons value others => exact abides value others heap output

theorem binaryFunction_abides {name : String} {result : StaticType}
    {action : Address → Address → Heap → Output → BuiltinResult}
    (abides : ∀ left right others heap output,
      (action left right heap output).Abides careless (left :: right :: others) heap) :
    (binaryFunction name result action).Abides careless := by
  intro arguments heap output
  match arguments with
  | [] => apply abides_failure
  | [only] => apply abides_failure
  | left :: right :: others => exact abides left right others heap output

theorem len_abides : len.Abides careless := by
  apply unaryFunction_abides
  intro value others heap output
  split
  · apply abides_scalar
  · apply abides_failure

theorem elementAt_abides : elementAt.Abides careless := by
  apply binaryFunction_abides
  intro container position others heap output
  simp only
  split
  · rename_i element found
    apply abides_handBack
    split at found
    · split at found
      · obtain ⟨object, alive, offered⟩ := Heap.offered_of_element? found
        exact Or.inr ⟨container, by simp, object, alive,
          Payload.mem_children_of_mem_offers offered⟩
      · simp at found
    · simp at found
  · apply abides_scalar

theorem inspection_abides : ∀ builtin ∈ inspection, builtin.Abides careless := by
  intro builtin member
  simp only [inspection, List.mem_cons, List.not_mem_nil, or_false] at member
  rcases member with rfl | rfl | rfl | rfl | rfl | rfl | rfl | rfl | rfl | rfl | rfl | rfl
  · exact len_abides
  · exact unaryFunction_abides fun value others heap output => abides_scalar output _
  · exact unaryFunction_abides fun value others heap output => abides_scalar output _
  · exact unaryFunction_abides fun value others heap output => abides_scalar output _
  · exact fun arguments heap output => abides_scalar output _
  · exact unaryFunction_abides fun value others heap output => abides_scalar output _
  · exact binaryFunction_abides fun left right others heap output => abides_scalar output _
  · exact binaryFunction_abides fun left right others heap output => abides_scalar output _
  · exact unaryFunction_abides fun value others heap output =>
      abides_handBack output (Or.inl (by simp))
  · exact elementAt_abides
  · exact fun arguments heap output => abides_scalar output _
  · exact fun arguments heap output => abides_failure output _

end Builtin

namespace BuiltinTable

variable {careless : Prop}

theorem standard_abides : standard.Abides careless := by
  apply Abides.register
  · apply Abides.register
    · intro builtin member
      simp [empty] at member
    · exact Builtin.write_abides ""
  · exact Builtin.write_abides "\n"

theorem withInspection_abides : withInspection.Abides careless :=
  standard_abides.registerAll Builtin.inspection_abides

theorem standard_lawful : standard.Lawful :=
  (@standard_abides True).lawful

theorem withInspection_lawful : withInspection.Lawful :=
  (@withInspection_abides True).lawful

end BuiltinTable

end ScriptEngine
