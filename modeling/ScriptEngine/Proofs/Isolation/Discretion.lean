import ScriptEngine.Proofs.Abreast.Calls
import ScriptEngine.Proofs.Isolation.Resemblance

/-!
# Discreet programs

A program is discreet if it calls no built-in function that reports how many objects there
are or in how many slots one is.  The others give answers that depend on values and on the
identity of objects alone.
-/

namespace ScriptEngine

/-- Answers with the same value and output, and heaps that resemble each other. -/
structure BuiltinResult.Resembles (result other : BuiltinResult) : Prop where
  value : result.value = other.value
  heap : result.heap.Resembles other.heap
  output : result.output = other.output

namespace Builtin

/-- Heaps that resemble each other make no difference to the function. -/
def Blind (builtin : Builtin) : Prop :=
  ∀ (arguments : List Address) (output : Output) {heap other : Heap}, heap.Resembles other →
    (builtin.action arguments heap output).Resembles (builtin.action arguments other output)

variable {heap other : Heap} {output : Output}

theorem computed_resembles {one another : Address × Heap} (coincide : Heap.Coincide one another)
    (output : Output) : (computed one output).Resembles (computed another output) :=
  ⟨congrArg Except.ok coincide.1, coincide.2, rfl⟩

theorem failure_resembles (same : heap.Resembles other) (failure : Failure) (output : Output) :
    BuiltinResult.Resembles ⟨.error failure, heap, output⟩ ⟨.error failure, other, output⟩ :=
  ⟨rfl, same, rfl⟩

theorem scalar_resembles (same : heap.Resembles other) (value : Scalar) (output : Output) :
    (computed (heap.newScalar value) output).Resembles (computed (other.newScalar value) output) :=
  computed_resembles (same.newScalar value) output

theorem handBack_resembles (same : heap.Resembles other) (address : Address) (output : Output) :
    (computed (address, heap.retain address) output).Resembles
      (computed (address, other.retain address) output) :=
  @computed_resembles (address, heap.retain address) (address, other.retain address)
    ⟨rfl, same.retain address⟩ output

theorem Blind.invoke {builtin : Builtin} (blind : builtin.Blind) (arguments : List Address)
    (output : Output) (same : heap.Resembles other) :
    (builtin.invoke arguments heap output).Resembles (builtin.invoke arguments other output) := by
  unfold Builtin.invoke
  split
  · exact blind arguments output same
  · exact failure_resembles same _ output

/-! ## The functions there are -/

theorem write_resembles (ending : String) (arguments : List Address) (output : Output)
    (same : heap.Resembles other) :
    (write ending arguments heap output).Resembles (write ending arguments other output) := by
  have shown : printed heap arguments = printed other arguments :=
    congrArg String.join (List.map_congr_left fun address _ => same.render_eq false address)
  simp only [write, shown]
  exact scalar_resembles same _ _

theorem unaryFunction_blind {name : String} {result : StaticType}
    {action : Address → Heap → Output → BuiltinResult}
    (answers : ∀ (value : Address) (output : Output) {heap other : Heap}, heap.Resembles other →
      (action value heap output).Resembles (action value other output)) :
    (unaryFunction name result action).Blind := by
  intro arguments output heap other same
  cases arguments with
  | nil => exact failure_resembles same _ output
  | cons value others => exact answers value output same

theorem binaryFunction_blind {name : String} {result : StaticType}
    {action : Address → Address → Heap → Output → BuiltinResult}
    (answers : ∀ (left right : Address) (output : Output) {heap other : Heap},
      heap.Resembles other →
        (action left right heap output).Resembles (action left right other output)) :
    (binaryFunction name result action).Blind := by
  intro arguments output heap other same
  match arguments with
  | [] => exact failure_resembles same _ output
  | [only] => exact failure_resembles same _ output
  | left :: right :: others => exact answers left right output same

theorem len_blind : len.Blind := by
  apply unaryFunction_blind
  intro value output heap other same
  simp only [same.payload?_eq, same.kind_eq]
  cases (other.payload? value).bind Payload.length? with
  | some length => exact scalar_resembles same _ output
  | none => exact failure_resembles same _ output

theorem elementAt_blind : elementAt.Blind := by
  apply binaryFunction_blind
  intro container position output heap other same
  simp only [same.scalar?_eq, same.element?_eq]
  generalize other.scalar? position = scalar
  cases scalar with
  | none => exact scalar_resembles same _ output
  | some value =>
      cases value with
      | int number =>
          by_cases reached : 0 ≤ number.toInt
          · simp only [if_pos reached]
            cases other.element? container number.toInt.toNat with
            | some element => exact handBack_resembles same element output
            | none => exact scalar_resembles same _ output
          · simp only [if_neg reached]
            exact scalar_resembles same _ output
      | _ => exact scalar_resembles same _ output

/-- What can be said of a function that reports no counts. -/
structure Discreet (builtin : Builtin) : Prop where
  impartial : builtin.Impartial False
  blind : builtin.Blind

theorem print_discreet : print.Discreet :=
  ⟨print_impartial, fun arguments output _ _ same => write_resembles "" arguments output same⟩

theorem println_discreet : println.Discreet :=
  ⟨println_impartial, fun arguments output _ _ same => write_resembles "\n" arguments output same⟩

theorem inspection_discreet {builtin : Builtin} (member : builtin ∈ inspection)
    (notLive : builtin ≠ live) (notSlots : builtin ≠ slots) : builtin.Discreet := by
  simp only [inspection, List.mem_cons, List.not_mem_nil, or_false] at member
  rcases member with rfl | rfl | rfl | rfl | rfl | rfl | rfl | rfl | rfl | rfl | rfl | rfl
  · exact ⟨len_impartial, len_blind⟩
  · refine ⟨typeOf_impartial, unaryFunction_blind fun value output heap other same => ?_⟩
    rw [same.type_eq]
    exact scalar_resembles same _ output
  · refine ⟨kindOf_impartial, unaryFunction_blind fun value output heap other same => ?_⟩
    rw [same.kind_eq]
    exact scalar_resembles same _ output
  · refine ⟨quote_impartial, unaryFunction_blind fun value output heap other same => ?_⟩
    rw [same.render_eq]
    exact scalar_resembles same _ output
  · exact absurd rfl notLive
  · exact absurd rfl notSlots
  · exact ⟨same_impartial, binaryFunction_blind fun _ _ output _ _ same =>
      scalar_resembles same _ output⟩
  · refine ⟨equals_impartial, binaryFunction_blind fun left right output heap other same => ?_⟩
    rw [same.equals_eq]
    exact scalar_resembles same _ output
  · exact ⟨pass_impartial, unaryFunction_blind fun value output _ _ same =>
      handBack_resembles same value output⟩
  · exact ⟨elementAt_impartial, elementAt_blind⟩
  · exact ⟨count_impartial, fun _ output _ _ same => scalar_resembles same _ output⟩
  · exact ⟨refuse_impartial, fun _ output _ _ same => failure_resembles same _ output⟩

end Builtin

namespace BuiltinTable

variable {table : BuiltinTable} {builtin other : Builtin}

theorem name_of_get? {name : String} (registered : table.get? name = some builtin) :
    builtin.name = name := by
  have same := List.find?_some registered
  exact eq_of_beq same

theorem mem_register (member : other ∈ (table.register builtin).functions) :
    other = builtin ∨ other ∈ table.functions := by
  rw [register, List.mem_cons] at member
  exact member.imp_right List.mem_of_mem_filter

theorem mem_registerAll {builtins : List Builtin}
    (member : other ∈ (builtins.foldl register table).functions) :
    other ∈ builtins ∨ other ∈ table.functions := by
  induction builtins generalizing table with
  | nil => exact Or.inr member
  | cons first others induction =>
      rcases induction member with later | earlier
      · exact Or.inl (List.mem_cons_of_mem first later)
      · rcases mem_register earlier with rfl | old
        · exact Or.inl List.mem_cons_self
        · exact Or.inr old

theorem withInspection_discreet (member : builtin ∈ withInspection.functions)
    (notLive : builtin ≠ .live) (notSlots : builtin ≠ .slots) : builtin.Discreet := by
  rcases mem_registerAll member with inspects | prints
  · exact Builtin.inspection_discreet inspects notLive notSlots
  · rcases mem_register prints with rfl | prints
    · exact Builtin.println_discreet
    · rcases mem_register prints with rfl | absent
      · exact Builtin.print_discreet
      · simp [empty] at absent

end BuiltinTable

/-- The functions are lawful, and those that are called report no counts. -/
structure Setup.Discreet (setup : Setup) : Prop where
  lawful : setup.builtins.Lawful
  calls : setup.CallsOnly Builtin.Discreet

namespace Setup.Discreet

variable {setup : Setup} (discreet : setup.Discreet)
include discreet

theorem impartial : setup.CallsOnly (Builtin.Impartial False) :=
  fun found registered => (discreet.calls found registered).impartial

theorem blind : setup.CallsOnly Builtin.Blind :=
  fun found registered => (discreet.calls found registered).blind

end Setup.Discreet

end ScriptEngine
