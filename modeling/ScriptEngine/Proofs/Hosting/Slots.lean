import ScriptEngine.Proofs.Hosting.Accounts
import ScriptEngine.Proofs.Hosting.Workbenches

/-!
# Slots

Every object counts the slots that hold it, after single operations in any
order and wherever the evaluation of a node begins or ends.
-/

namespace ScriptEngine

/-- Every object counts the slots that hold it, those of containers and some
outside the heap.  No slot holds an object that is gone, and none was left that
was not counted. -/
structure Heap.ExactSlots (heap : Heap) (slots : Multiset Address) : Prop where
  counted : ∀ {address object}, heap.get? address = some object →
    object.slots = (heap.stored + slots).count address
  occupied : ∀ {address}, address ∈ heap.stored + slots → ∃ object, heap.get? address = some object
  sound : heap.underflowed = false

theorem Heap.Balanced.exactSlots {heap : Heap} {slots handles : Multiset Address}
    (balanced : heap.Balanced slots handles) : heap.ExactSlots slots := by
  refine ⟨balanced.slotted, ?_, balanced.sound⟩
  intro address member
  exact balanced.alive (Multiset.mem_add.mpr (Or.inl member))

/-- The workbench after some operations. -/
def Workbench.after (commands : List Workbench.Command) : Workbench :=
  commands.foldl (fun bench command => (bench.perform command).2) initial

theorem Workbench.after_counted (commands : List Workbench.Command) :
    (after commands).Counted 0 0 := by
  have preserved : ∀ (commands : List Workbench.Command) (bench : Workbench),
      bench.Counted 0 0 →
        (commands.foldl (fun bench command => (bench.perform command).2) bench).Counted 0 0 := by
    intro commands
    induction commands with
    | nil => exact fun bench counted => counted
    | cons command others induction =>
        intro bench counted
        exact induction _ (counted.perform command)
  exact preserved commands initial initial_counted

open Session in
/-- Slots are counted exactly after any operations on a workbench, and in any
session after every request and at every moment of one. -/
theorem exactSlots_throughout :
    (∀ commands : List Workbench.Command,
      (Workbench.after commands).heap.ExactSlots
        ((Workbench.after commands).scopes.bound + (Workbench.after commands).slotted)) ∧
    ∀ {program : Program} {builtins : BuiltinTable} {sink : Sink} {limit : Option Nat},
      builtins.Lawful → ∀ {requests : List (Nat × Request)} {session : Session},
        Runs (start program builtins sink limit) requests session →
          session.state.heap.ExactSlots session.state.scopes.bound ∧
          ∀ {fuel : Nat} {request : Request} {moment : State},
            session.Visits fuel request moment → moment.heap.ExactSlots moment.scopes.bound := by
  constructor
  · intro commands
    have exact := (Workbench.after_counted commands).beside.heap.exactSlots
    rw [zero_add] at exact
    exact exact
  · intro program builtins sink limit lawful requests session runs
    have upholds := runs.upholds Ledger.Orderly.hosted (by simp)
      (start_upholds lawful Ledger.Orderly.blank)
    constructor
    · exact upholds.ledger.balanced.heap.exactSlots
    · intro fuel request moment visits
      obtain ⟨hand, orderly⟩ := upholds.visited Ledger.Orderly.hosted (by simp) visits
      exact orderly.balanced.heap.exactSlots

/-- A program that declares one name again and again. -/
def Session.redeclaring : Program where
  expressions := #[⟨.literal (.int 1), .empty⟩]
  statements := #[⟨.declare ⟨0⟩ (some ⟨0⟩), .empty⟩]

open Session in
theorem exactSlots_throughout_redeclaring :
    ∃ report session,
      (start redeclaring .standard .silent none).step 5 (.run [⟨0⟩]) = .ok (report, session) ∧
      session.state.scopes.root.bindings = [(⟨0⟩, 0)] ∧
      session.state.heap.ExactSlots session.state.scopes.bound ∧
      session.Visits 5 (.execute ⟨0⟩) session.state := by
  have stepped : ∃ report session,
      (start redeclaring .standard .silent none).step 5 (.run [⟨0⟩]) =
        .ok (report, session) ∧
      session.state.scopes.root.bindings = [(⟨0⟩, 0)] :=
    ⟨_, _, rfl, rfl⟩
  obtain ⟨report, session, stepped, bindings⟩ := stepped
  have runs := Runs.cons stepped (.nil session)
  have visits := session.visits_start 4 ⟨0⟩
  refine ⟨report, session, stepped, bindings, ?_, visits⟩
  exact (exactSlots_throughout.2 BuiltinTable.standard_lawful runs).2 visits

end ScriptEngine
