import ScriptEngine.Proofs.Abreast.States
import ScriptEngine.Proofs.Isolation.Lifting

/-!
# States without callers

The frames of callers can be taken off a state, and the handles of what they hold put aside:
what is left is a state outside of all calls, with every handle and every slot counted.
-/

namespace ScriptEngine

theorem Heap.Resembles.trans {first second third : Heap} (same : first.Resembles second)
    (alike : second.Resembles third) : first.Resembles third := by
  refine ⟨same.size.trans alike.size, same.zone.trans alike.zone, same.issued.trans alike.issued,
    fun address => ?_⟩
  have one := same.object address
  have other := alike.object address
  generalize first.get? address = object, second.get? address = middle,
    third.get? address = another at one other ⊢
  cases one with
  | none =>
      cases other with
      | none => exact .none
  | some left =>
      cases other with
      | some right => exact .some ⟨left.type.trans right.type, left.payload.trans right.payload,
          left.zone.trans right.zone, left.serial.trans right.serial,
          left.handles.trans right.handles⟩

namespace Ledger

variable {ledger : Ledger}

/-- No property of a ledger depends on the limit. -/
theorem Orderly.unlimited (orderly : ledger.Orderly) : Orderly { ledger with limit := none } :=
  ⟨⟨orderly.balanced.distinct, orderly.balanced.heap⟩,
    ⟨orderly.separated.heap, orderly.separated.literals⟩,
    ⟨orderly.tidy.heap, orderly.tidy.literals⟩⟩

/-- Everything that is owned may be treated like handles on stored data. -/
theorem Orderly.lowerAll (orderly : ledger.Orderly) :
    Orderly { ledger with owned := 0, shared := ledger.owned + ledger.shared } := by
  obtain ⟨⟨owned, shared⟩, heap, scopes, results, literals, limit⟩ := ledger
  induction owned using Multiset.induction generalizing shared with
  | empty => simpa using orderly
  | cons address owned induction =>
      have lowered := induction _ (Orderly.step (@Step.lower ⟨True, True⟩ _ address owned rfl) orderly)
      simpa [Multiset.add_cons] using lowered

/-- The results that calls keep may be taken from them. -/
theorem Orderly.takeAll (orderly : ledger.Orderly) :
    ∃ heap : Heap, heap.Resembles ledger.heap ∧
      Orderly { ledger with
        heap := heap
        results := 0
        shared := ledger.results + ledger.shared } := by
  obtain ⟨⟨owned, shared⟩, heap, scopes, results, literals, limit⟩ := ledger
  induction results using Multiset.induction generalizing shared heap with
  | empty => exact ⟨heap, .refl heap, by simpa using orderly⟩
  | cons value results induction =>
      have taken := Orderly.step (@Step.take ⟨True, True⟩ _ value results rfl) orderly
      have lowered := Orderly.step (@Step.lower ⟨True, True⟩ _ value owned rfl) taken
      obtain ⟨heap', same, orderly'⟩ := induction _ _ lowered
      refine ⟨heap', same.trans ((Heap.Resembles.refl heap).setPinnedLeft value false), ?_⟩
      simpa [Multiset.add_cons] using orderly'

/-- All scope frames but the root frame may be removed. -/
theorem Orderly.popAll (orderly : ledger.Orderly) :
    ∃ (heap : Heap) (values : Multiset Address), heap.Resembles ledger.heap ∧
      (∀ {frame value}, frame ∈ ledger.scopes.nested → value ∈ frame.values → value ∈ values) ∧
      Orderly { ledger with
        heap := heap
        scopes := { root := ledger.scopes.root }
        shared := values + ledger.shared } := by
  obtain ⟨count, size⟩ : ∃ count, ledger.scopes.nested.size = count := ⟨_, rfl⟩
  induction count generalizing ledger with
  | zero =>
      have empty : ledger.scopes.nested = #[] := Array.eq_empty_of_size_eq_zero size
      have same : ledger.scopes = { root := ledger.scopes.root } := by
        rw [← empty]
      refine ⟨ledger.heap, 0, .refl _, by simp [empty], ?_⟩
      rw [← same, zero_add]
      exact orderly
  | succ count induction =>
      have nonempty : ledger.scopes.nested ≠ #[] := by
        intro empty
        simp [empty] at size
      obtain ⟨frame, last⟩ := Option.ne_none_iff_exists'.mp
        (mt Array.back?_eq_none_iff.mp nonempty)
      have popped := Orderly.step (@Step.pop ⟨True, True⟩ _ frame last) orderly
      obtain ⟨heap, values, same, covers, orderly'⟩ := induction popped
        (by simp [Scopes.dropFrame, size])
      refine ⟨heap, values + frame.values,
        same.trans ((Heap.Resembles.refl _).leaveSlotsLeft frame.values), ?_, ?_⟩
      · intro other value member inside
        rw [Multiset.mem_add]
        obtain ⟨front, split⟩ := Array.back?_eq_some_iff.mp last
        rw [split, Array.mem_push] at member
        rcases member with old | rfl
        · refine Or.inl (covers ?_ inside)
          simpa [Scopes.dropFrame, split] using old
        · exact Or.inr (Multiset.mem_coe.mpr inside)
      · simpa [Scopes.dropFrame, add_assoc] using orderly'

end Ledger

namespace State

/-- The state with the root frame alone, in another heap. -/
def bare (state : State) (heap : Heap) : State where
  heap := heap
  scopes := { root := state.scopes.root }
  literals := state.literals
  output := state.output

/-- The frames that a state has besides the root frame. -/
def callers (state : State) : Callers where
  scopes := state.scopes.nested.toList
  loops := state.loops.frames.toList
  calls := state.calls.frames.toList

/-- With what the callers hold put aside, what a call is given is all that is at hand. -/
theorem exists_bare {state : State} {hand : Hand} (given : Multiset Address)
    (orderly : (state.ledger { hand with shared := given + hand.shared }).Orderly) :
    ∃ (heap : Heap) (aside : Multiset Address), heap.Resembles state.heap ∧
      (∀ {frame value}, frame ∈ state.scopes.nested → value ∈ frame.values → value ∈ aside) ∧
      ((state.bare heap).ledger ⟨0, given + aside⟩).Orderly := by
  obtain ⟨heap, values, same, covers, popped⟩ := orderly.popAll
  obtain ⟨heap', same', taken⟩ := popped.takeAll
  have lowered := taken.lowerAll
  refine ⟨heap', hand.owned + (state.calls.results + (values + hand.shared)), same'.trans same,
    ?_, ?_⟩
  · intro frame value member inside
    have known : value ∈ values := covers member inside
    simp [known]
  · have regroup : given + (hand.owned + (state.calls.results + (values + hand.shared))) =
        hand.owned + (state.calls.results + (values + (given + hand.shared))) := by
      simp only [add_left_comm]
    rw [regroup]
    exact Ledger.Orderly.unlimited lowered

theorem lift_bare (state : State) {heap : Heap} (same : heap.Resembles state.heap) :
    state.callers.Lift ⟨0, 0, 0⟩ (state.bare heap) state where
  scopes := by
    simp [Callers.LiftScopes, bare, callers, Scopes.frames]
  loops := ⟨by simp [bare, callers], by simp [bare]⟩
  calls := ⟨by simp [bare, callers], by simp [bare], rfl⟩
  heap := same
  literals := rfl
  output := rfl
  height := rfl

end State

end ScriptEngine
