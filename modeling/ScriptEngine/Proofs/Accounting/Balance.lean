import ScriptEngine.Proofs.Accounting.Ledger

/-!
# Balanced ledgers

In a balanced ledger every object counts exactly the slots and the handles
that the ledger shows.  Each step of a run keeps the balance, also beside slots
that no scope and no container has.
-/

namespace ScriptEngine

namespace Ledger

/-- All handles outside the heap and its slots. -/
def handles (ledger : Ledger) : Multiset Address :=
  ledger.owned + (ledger.shared + (ledger.results + ledger.literals))

structure Balanced (ledger : Ledger) : Prop where
  distinct : ledger.scopes.Distinct
  heap : ledger.heap.Balanced ledger.scopes.bound ledger.handles

/-- Balanced, if some slots outside the ledger are counted as well. -/
structure BalancedBeside (slots : Multiset Address) (ledger : Ledger) : Prop where
  distinct : ledger.scopes.Distinct
  heap : ledger.heap.Balanced (ledger.scopes.bound + slots) ledger.handles

theorem balancedBeside_zero_iff {ledger : Ledger} :
    ledger.BalancedBeside 0 ↔ ledger.Balanced := by
  constructor
  · rintro ⟨distinct, heap⟩
    rw [add_zero] at heap
    exact ⟨distinct, heap⟩
  · rintro ⟨distinct, heap⟩
    rw [← add_zero ledger.scopes.bound] at heap
    exact ⟨distinct, heap⟩

variable {ledger : Ledger}

theorem mem_of_shows {address : Address} (shown : ledger.Shows address) :
    address ∈ ledger.heap.stored + ledger.scopes.bound + ledger.handles := by
  rcases shown with bound | shared | ⟨container, member, object, found, child⟩
  · simp [bound]
  · simp [handles, shared]
  · have stored := Heap.mem_stored.mpr
      ⟨container, object, found, Payload.mem_children_of_mem_offers child⟩
    simp [stored]

variable {licence : Licence}

/-- What is built takes over what is owned. -/
theorem BalancedBeside.craft {slots : Multiset Address} (balanced : ledger.BalancedBeside slots)
    {heap : Heap} {given made owned : Multiset Address}
    (crafted : Heap.Crafted ledger.heap given heap made) (split : ledger.owned = given + owned) :
    BalancedBeside slots { ledger with heap := heap, owned := made + owned } := by
  obtain ⟨distinct, counted⟩ := balanced
  refine ⟨distinct, ?_⟩
  have crafting := Heap.Balanced.crafting (ledger.scopes.bound + slots)
    (ledger.shared + (ledger.results + ledger.literals))
  have kept : ledger.heap.Balanced (0 + (ledger.scopes.bound + slots))
      (given + owned + (ledger.shared + (ledger.results + ledger.literals))) := by
    simpa [handles, split] using counted
  simpa [handles] using crafted crafting kept

theorem BalancedBeside.withDefault {slots : Multiset Address}
    (balanced : ledger.BalancedBeside slots) (type : StaticType) :
    (ledger.withDefault type).BalancedBeside slots :=
  balanced.craft (Heap.Crafted.newDefault ledger.heap type) (zero_add ledger.owned).symm

theorem BalancedBeside.amends {slots : Multiset Address} {before after : Ledger}
    (amends : before.Amends after) (balanced : before.BalancedBeside slots) :
    after.BalancedBeside slots := by
  obtain ⟨distinct, counted⟩ := balanced
  cases amends with
  | @intro address object payload added removed owned shared found container kept exchanged
      given =>
      refine ⟨distinct, ?_⟩
      have entered : (before.heap.enterSlots added).Balanced
          (added + (before.scopes.bound + slots))
          (owned + (before.shared + (before.results + before.literals))) := by
        apply Heap.Balanced.enterSlots
        simpa [handles, given, add_assoc] using counted
      have same : (before.heap.enterSlots added).payload? address = some object.payload := by
        rw [Heap.payload?_enterSlots, Heap.payload?_of_get? found]
      obtain ⟨current, alive, payloads⟩ := Heap.payload?_eq_some_iff.mp same
      have amended : ((before.heap.enterSlots added).setPayload address payload).Balanced
          (removed + (before.scopes.bound + slots))
          (owned + (before.shared + (before.results + before.literals))) := by
        apply entered.setPayload alive
        rw [payloads, ← add_assoc, add_comm (payload.children : Multiset Address), exchanged]
        ac_rfl
      simpa [handles, add_left_comm, add_assoc] using amended.leaveSlots

theorem BalancedBeside.step (slots : Multiset Address) :
    Lasting licence (BalancedBeside slots) := by
  intro before after step balanced
  have distinct := balanced.distinct
  have counted := balanced.heap
  cases step with
  | craft makes split => exact balanced.craft makes.crafted split
  | cache value =>
      refine ⟨distinct, ?_⟩
      have made : (before.heap.newScalar value).2.Balanced (before.scopes.bound + slots)
          ((before.heap.newScalar value).1 ::ₘ before.handles) := by
        apply Heap.Balanced.allocate
        simpa [Payload.children] using counted
      have member : (before.heap.newScalar value).1 ∈
          (before.heap.newScalar value).2.stored + (before.scopes.bound + slots) +
            (before.heap.newScalar value).1 ::ₘ before.handles := by
        simp
      simpa [handles] using made.retain member
  | @duplicate address scalar =>
      refine ⟨distinct, ?_⟩
      have member : address ∈
          before.heap.stored + (before.scopes.bound + slots) + before.handles := by
        rcases scalar with ⟨value, found⟩ | literal
        · unfold Heap.scalar? at found
          split at found
          · rename_i payload
            obtain ⟨object, alive, _⟩ := Heap.payload?_eq_some_iff.mp payload
            exact counted.mem_of_get? alive
          · simp at found
        · simp [handles, literal]
      simpa [handles] using counted.retain member
  | @share address shown =>
      refine ⟨distinct, ?_⟩
      have member : address ∈
          before.heap.stored + (before.scopes.bound + slots) + before.handles := by
        have narrower := mem_of_shows shown
        simp only [Multiset.mem_add] at narrower ⊢
        tauto
      simpa [handles] using counted.retain member
  | lower given =>
      refine ⟨distinct, ?_⟩
      simpa [handles, given] using counted
  | giveBack given =>
      refine ⟨distinct, ?_⟩
      apply Heap.Balanced.releaseAll
      simpa [handles, given] using counted
  | @bind hand lent position name value previous? inside previous given allowed =>
      refine ⟨distinct.put position name value, ?_⟩
      have exchanged := distinct.bound_exchanged inside previous value
      have entered : (before.heap.enterSlot value).Balanced
          (value ::ₘ (before.scopes.bound + slots))
          (hand.owned + (hand.shared + (before.results + before.literals))) := by
        apply Heap.Balanced.enterSlot
        cases lent with
        | false => simpa [handles, given, Hand.own] using counted
        | true => simpa [handles, given, Hand.share] using counted
      rw [← Multiset.cons_add, ← exchanged, add_assoc] at entered
      have left := entered.leaveSlots
      simpa [handles, Hand.shareAll, add_left_comm, add_assoc] using left
  | push => exact ⟨distinct.push, by simpa [handles] using counted⟩
  | pop last =>
      refine ⟨distinct.dropFrame last, ?_⟩
      rw [Scopes.bound_dropFrame last, add_assoc] at counted
      simpa [handles, add_left_comm, add_assoc] using counted.leaveSlots
  | skip depth => exact ⟨distinct.skipFrom depth, by simpa [handles] using counted⟩
  | amend shared found refills given =>
      exact balanced.amends (amends_of_refills shared found refills given)
  | extend shared payload absent given =>
      exact (balanced.withDefault _).amends (amends_of_extends shared payload given)
  | @keep value owned given =>
      refine ⟨distinct, ?_⟩
      have pinned := counted.setPinned value true
      simpa [handles, given] using pinned
  | @take value results given =>
      refine ⟨distinct, ?_⟩
      have unpinned := counted.setPinned value false
      simpa [handles, given] using unpinned
  | @handBack arguments value owned given within =>
      refine ⟨distinct, ?_⟩
      have member : value ∈
          before.heap.stored + (before.scopes.bound + slots) + before.handles := by
        rcases within with passed | ⟨container, _, object, found, child⟩
        · simp [handles, given, Multiset.mem_coe.mp passed]
        · have stored := Heap.mem_stored.mpr ⟨container, object, found, child⟩
          simp [stored]
      apply Heap.Balanced.releaseAll
      simpa [handles, given, add_assoc] using counted.retain member

theorem Balanced.withDefault (balanced : ledger.Balanced) (type : StaticType) :
    (ledger.withDefault type).Balanced := by
  rw [← balancedBeside_zero_iff] at balanced ⊢
  exact BalancedBeside.withDefault balanced type

theorem Balanced.step : Lasting licence Balanced := by
  intro before after step balanced
  rw [← balancedBeside_zero_iff] at balanced ⊢
  exact BalancedBeside.step 0 step balanced

end Ledger

end ScriptEngine
