import ScriptEngine.Proofs.Hosting.Accounts
import ScriptEngine.Proofs.Ownership.Acyclicity

/-!
# Acyclicity throughout

No request makes an object hold itself by any way, also where the host passes
handles on what is bound or held, or values built around them.  What is alive
after a request is then exactly what slots lead to from the bindings, the handles
of the host and the cached literals.
-/

namespace ScriptEngine

theorem Ledger.Orderly.grounded {ledger : Ledger} (orderly : ledger.Orderly) :
    ledger.heap.Grounded :=
  orderly.separated.heap.acyclic.grounded

namespace Session

variable {session : Session}

/-- After any requests, and at every moment of a further one, the heap is grounded
and holds nothing that is no longer referred to. -/
theorem Runs.never_cyclic {program : Program} {builtins : BuiltinTable} {sink : Sink}
    {limit : Option Nat} (lawful : builtins.Lawful) {requests : List (Nat × Request)}
    (runs : Runs (start program builtins sink limit) requests session) :
    session.state.heap.Grounded ∧
      (∀ address, address ∈ session.state.heap.living ↔
        session.state.heap.Reaches session.roots address) ∧
      ∀ {fuel : Nat} {request : Request} {moment : State}, session.Visits fuel request moment →
        moment.heap.Grounded ∧ moment.heap.Reclaimed := by
  have upholds := runs.upholds Ledger.Orderly.hosted (by simp)
    (start_upholds lawful Ledger.Orderly.blank)
  refine ⟨upholds.ledger.grounded, upholds.accounted.living, ?_⟩
  intro fuel request moment visits
  obtain ⟨hand, orderly⟩ := upholds.visited Ledger.Orderly.hosted (by simp) visits
  exact ⟨orderly.grounded, orderly.balanced.heap.reclaimed orderly.separated.heap⟩

/-- A function that stores its second argument in its first. -/
def storing : Program where
  expressions := #[⟨.reference ⟨1⟩, .empty⟩, ⟨.literal (.int 0), .empty⟩,
    ⟨.index ⟨0⟩ [⟨1⟩], .empty⟩, ⟨.reference ⟨2⟩, .empty⟩, ⟨.assign ⟨2⟩ ⟨3⟩, .empty⟩]
  statements := #[⟨.expression ⟨4⟩, .empty⟩]
  functions := #[⟨.empty, [⟨⟨1⟩, .vector .int⟩, ⟨⟨2⟩, .vector .int⟩], .none, ⟨[⟨0⟩], .empty⟩, .empty⟩]

/-- The host passes one vector twice, which is to be stored in itself. -/
theorem Runs.never_cyclic_storing :
    ∃ session, Runs (start storing .standard .silent none)
        [(0, .create "v" (.vector .int [.scalar (.int 1)])),
          (9, .call ⟨0⟩ [.held "v", .held "v"] none)] session ∧
      (session.held.get? "v").map (session.state.heap.render false) = some "[[1]]" ∧
      session.state.heap.Grounded ∧ session.Visits 9 (.execute ⟨0⟩) session.state := by
  have ran : ((start storing .standard .silent none).step 0
      (.create "v" (.vector .int [.scalar (.int 1)]))).toOption.any (fun lending =>
        (lending.2.step 9 (.call ⟨0⟩ [.held "v", .held "v"] none)).toOption.any fun ran =>
          (ran.2.held.get? "v").map (ran.2.state.heap.render false) = some "[[1]]") = true := by
    decide +kernel
  obtain ⟨_, lending, created, ran⟩ := exists_step_of_any ran
  obtain ⟨_, session, called, rendered⟩ := exists_step_of_any ran
  have runs := Runs.cons created (.cons called (.nil session))
  have visits := session.visits_start 8 ⟨0⟩
  refine ⟨session, runs, of_decide_eq_true rendered, ?_, visits⟩
  exact ((Runs.never_cyclic BuiltinTable.standard_lawful runs).2.2 visits).1

end Session

end ScriptEngine
