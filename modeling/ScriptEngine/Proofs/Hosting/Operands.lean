import ScriptEngine.Proofs.Hosting.Accounts
import ScriptEngine.Proofs.Ownership.Snapshots

/-!
# Handles that wait

The value of an operand waits in hand while the operands after it are evaluated, and
these leave it as it was.  What an operator then makes of its operands outlives them.
-/

namespace ScriptEngine

open Evaluation

/-- Evaluators that keep the books in order, and whatever waits beside as it was. -/
structure Nested.Careful (nested : Nested) : Prop where
  orderly : nested.Sound Ledger.Orderly
  preserves : ∀ origin source, nested.Sound (Ledger.Preserves origin source)

theorem Nested.withFuel_careful {setup : Setup} (lawful : setup.builtins.Lawful) (fuel : Nat) :
    (withFuel setup fuel).Careful where
  orderly := withFuel_sound (@Ledger.Orderly.step ⟨True, True⟩) lawful.abides fuel
  preserves origin source :=
    withFuel_sound (@Ledger.Preserves.step ⟨True, True⟩ origin source) lawful.abides fuel

namespace Nested.Careful

variable {nested : Nested} {depth : Nat} {hand : Hand} {state last : State}
  {left right : Address} {id : ExpressionId} {failure : Failure} (careful : nested.Careful)
include careful

theorem value (held : Holding Ledger.Orderly depth hand state)
    (evaluated : nested.evaluate id state = .value right last) :
    Holding Ledger.Orderly depth (hand.own right) last :=
  ((careful.orderly.operands depth).evaluate id hand).of_value held evaluated

theorem waiting (held : Holding Ledger.Orderly depth (hand.own left) state)
    (evaluated : nested.evaluate id state = .value right last) :
    Holding Ledger.Orderly depth (hand.ownAll [left, right]) last ∧
      Heap.Alike state.heap last.heap left := by
  have whole : (state.ledger hand).Preserves state.heap left := ⟨held.1, .refl _ _⟩
  have kept : Holding (Ledger.Preserves state.heap left) depth (hand.own right) last :=
    (((careful.preserves state.heap left).operands depth).evaluate id hand).of_value
      ⟨whole, held.2⟩ evaluated
  simp only [Hand.ownAll_cons, Hand.ownAll_nil]
  exact ⟨⟨kept.1.orderly, kept.2⟩, kept.1.alike⟩

end Nested.Careful

/-- What is owned lives. -/
theorem Holding.alive {depth : Nat} {hand : Hand} {state : State} {address : Address}
    (held : Holding Ledger.Orderly depth (hand.own address) state) :
    state.heap.payload? address ≠ none := by
  have orderly : ((state.ledger hand).beside address).Orderly := held.1
  exact orderly.alive_beside

/-- A new scalar outlives the operands that it was made of. -/
theorem Holding.newScalar {depth : Nat} {hand : Hand} {state : State} {addresses : List Address}
    (held : Holding Ledger.Orderly depth (hand.ownAll addresses) state) (value : Scalar) :
    ∃ address last, holding addresses (Evaluation.newScalar value) state = .value address last ∧
      last.heap.scalar? address = some value ∧
      Holding Ledger.Orderly depth (hand.own address) last := by
  have stable := Holding.stable (@Ledger.Orderly.step ⟨True, True⟩) depth
  let grown : State := { state with heap := (state.heap.newScalar value).2 }
  have kept : Holding Ledger.Orderly depth (hand.own (state.heap.newScalar value).1)
      (grown.releaseAll addresses) := by
    apply stable.release
    rw [← Hand.own_ownAll]
    exact stable.create (Heap.Fashioned.newScalar state.heap value).makes held
  refine ⟨(state.heap.newScalar value).1, grown.releaseAll addresses, rfl, ?_, kept⟩
  obtain ⟨payload, found⟩ := Option.ne_none_iff_exists'.mp kept.alive
  have made : grown.heap.scalar? (state.heap.newScalar value).1 = some value :=
    state.heap.scalar?_newScalar value
  rw [State.releaseAll_eq] at found ⊢
  have before := (Heap.Remains.releaseAll _ _).payload found
  rw [Heap.scalar?, before] at made
  rw [Heap.scalar?, found]
  exact made

end ScriptEngine
