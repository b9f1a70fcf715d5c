import ScriptEngine.Proofs.Ownership.Tidiness

/-!
# Unshared containers

Where no lent handle can be bound to a name, every container is in one slot at
most.  Slots are filled with owned values alone, whose containers are in no
slot yet.
-/

namespace ScriptEngine

namespace Heap

/-- No two slots hold the same container. -/
def Unshared (heap : Heap) (slots : Multiset Address) : Prop :=
  ∀ address, heap.IsContainer address → (heap.stored + slots).count address ≤ 1

variable {heap before after : Heap} {slots kept lent : Multiset Address}

/-- A kept container is in no slot. -/
theorem Separated.alone (separated : heap.Separated kept lent) {address : Address}
    (member : address ∈ kept) (container : heap.IsContainer address) :
    heap.stored.count address = 0 ∧ kept.count address = 1 ∧ lent.count address = 0 := by
  obtain ⟨owner, rank, certified⟩ := separated
  obtain ⟨unstored, once⟩ := certified.count_stored_of_mem_kept member container
  exact ⟨unstored, once,
    Multiset.count_eq_zero.mpr (certified.not_mem_lent_of_mem_kept member container)⟩

namespace Unshared

theorem remains {slots' : Multiset Address} (unshared : before.Unshared slots)
    (remains : Remains before after) (fewer : slots' ≤ slots) : after.Unshared slots' := by
  intro address container
  have bounded := unshared address (remains.isContainer container)
  have least := Multiset.count_le_of_le address (add_le_add remains.stored fewer)
  exact least.trans bounded

/-- Slots that take in kept values. -/
theorem fill {values : List Address} {slots' : Multiset Address}
    (unshared : before.Unshared slots) (separated : before.Separated (values + kept) lent)
    (bound : ∀ {address}, address ∈ slots → address ∈ lent)
    (containers : ∀ {address}, after.IsContainer address →
      before.IsContainer address ∨ address ∉ after.stored + slots')
    (filled : after.stored + slots' ≤ values + (before.stored + slots)) :
    after.Unshared slots' := by
  intro address container
  rcases containers container with old | absent
  · have least := Multiset.count_le_of_le address filled
    rw [Multiset.count_add address values] at least
    by_cases fresh : address ∈ (values : Multiset Address)
    · obtain ⟨unstored, once, unlent⟩ :=
        separated.alone (Multiset.mem_add.mpr (Or.inl fresh)) old
      have unbound : slots.count address = 0 := by
        rw [Multiset.count_eq_zero] at unlent ⊢
        exact fun member => unlent (bound member)
      rw [Multiset.count_add] at once
      rw [Multiset.count_add address before.stored] at least
      omega
    · have bounded := unshared address old
      have unused := Multiset.count_eq_zero.mpr fresh
      omega
  · rw [Multiset.count_eq_zero.mpr absent]
    exact Nat.zero_le 1

/-- What is built takes over what is kept. -/
theorem crafting (kept : Multiset Address)
    (bound : ∀ {address}, address ∈ slots → address ∈ lent) :
    Crafting fun heap pending owned =>
      heap.Separated (pending + (owned + kept)) lent ∧ heap.Unshared slots where
  enter {heap pending owned address} both :=
    ⟨(Separated.crafting kept lent).enter both.1,
      remains both.2 (Remains.enterSlot heap address) le_rfl⟩
  leave {heap pending owned address} both :=
    ⟨(Separated.crafting kept lent).leave both.1,
      remains both.2 (Remains.leaveSlot heap address) le_rfl⟩
  release {heap pending owned address} both :=
    ⟨(Separated.crafting kept lent).release both.1,
      remains both.2 (Remains.release heap address) le_rfl⟩
  allocate {heap pending owned} payload type both := by
    obtain ⟨separated, unshared⟩ := both
    refine ⟨(Separated.crafting kept lent).allocate payload type separated, ?_⟩
    rw [add_assoc] at separated
    apply unshared.fill separated bound
    · intro address container
      rcases isContainer_allocate container with rfl | old
      · refine Or.inr fun member => ?_
        obtain ⟨owner, rank, certified⟩ := separated
        have small : heap.cells.size < heap.cells.size := by
          apply certified.known
          simp only [stored_allocate, Multiset.mem_add] at member ⊢
          rcases member with (stored | child) | held
          · exact Or.inl (Or.inl stored)
          · exact Or.inl (Or.inr (Or.inl child))
          · exact Or.inr (bound held)
        exact Nat.lt_irrefl _ small
      · exact Or.inl old
    · rw [stored_allocate, add_comm heap.stored, add_assoc]

end Unshared

end Heap

namespace Ledger

/-- Orderly, and no container is in two slots. -/
structure Exclusive (ledger : Ledger) : Prop where
  orderly : ledger.Orderly
  unshared : ledger.heap.Unshared ledger.scopes.bound

variable {ledger : Ledger} {licence : Licence}

theorem Exclusive.craft (exclusive : ledger.Exclusive) {heap : Heap}
    {given made owned : Multiset Address} (crafted : Heap.Crafted ledger.heap given heap made)
    (split : ledger.owned = given + owned) : heap.Unshared ledger.scopes.bound := by
  have crafting := @Heap.Unshared.crafting ledger.scopes.bound ledger.lent ledger.results
    mem_lent_of_bound
  have separated : ledger.heap.Separated (0 + (given + owned + ledger.results)) ledger.lent := by
    rw [zero_add, ← split]
    exact exclusive.orderly.separated.heap
  have made := crafted crafting ⟨separated, exclusive.unshared⟩
  exact made.2

theorem Exclusive.withDefault (exclusive : ledger.Exclusive) (type : StaticType) :
    (ledger.withDefault type).Exclusive := by
  have ⟨⟨balanced, separated, tidy⟩, unshared⟩ := exclusive
  exact ⟨⟨balanced.withDefault type, separated.withDefault type, tidy.withDefault type⟩,
    exclusive.craft (Heap.Crafted.newDefault ledger.heap type) (zero_add ledger.owned).symm⟩

theorem Exclusive.amends {before after : Ledger} (amends : before.Amends after)
    (exclusive : before.Exclusive) : after.heap.Unshared after.scopes.bound := by
  have ⟨⟨_, separated, _⟩, unshared⟩ := exclusive
  cases amends with
  | @intro address object payload added removed owned shared found container kept exchanged
      given =>
      have entered := Heap.Remains.enterSlots before.heap added
      have left := Heap.Remains.leaveSlots
        ((before.heap.enterSlots added).setPayload address payload) removed
      have same : (before.heap.enterSlots added).payload? address = some object.payload := by
        rw [Heap.payload?_enterSlots, Heap.payload?_of_get? found]
      obtain ⟨current, alive, payloads⟩ := Heap.payload?_eq_some_iff.mp same
      rw [← payloads] at container exchanged
      have apart : before.heap.Separated (added + (owned + before.results)) before.lent := by
        simpa [Ledger.kept, given, add_assoc] using separated.heap
      have stored : ((before.heap.enterSlots added).setPayload address payload).stored + removed =
          (before.heap.enterSlots added).stored + added := by
        have moved := Heap.stored_setPayload alive payload
        apply add_right_cancel (b := (current.payload.children : Multiset Address))
        rw [add_right_comm, moved, add_assoc, add_comm (payload.children : Multiset Address),
          exchanged, add_assoc]
      apply unshared.fill apart mem_lent_of_bound
      · intro other inside
        have shaped := left.isContainer inside
        rw [Heap.isContainer_setPayload_iff alive container kept] at shaped
        exact Or.inl (entered.isContainer shaped)
      · rw [← add_assoc]
        refine add_le_add ?_ le_rfl
        calc
          (((before.heap.enterSlots added).setPayload address payload).leaveSlots removed).stored
            ≤ ((before.heap.enterSlots added).setPayload address payload).stored := left.stored
          _ ≤ (before.heap.enterSlots added).stored + added := by
              rw [← stored]
              exact Multiset.le_add_right _ _
          _ ≤ added + before.heap.stored := by
              rw [add_comm]
              exact add_le_add le_rfl entered.stored

theorem Exclusive.step (never : ¬ licence.lends) : Lasting licence Exclusive := by
  intro before after step exclusive
  refine ⟨Orderly.step step exclusive.orderly, ?_⟩
  have ⟨⟨balanced, separated, _⟩, unshared⟩ := exclusive
  cases step with
  | craft makes split => exact exclusive.craft makes.crafted split
  | cache value =>
      have made := exclusive.craft (Heap.Crafted.newScalar before.heap value) (zero_add _).symm
      exact made.remains (Heap.Remains.retain _ _) le_rfl
  | duplicate scalar => exact unshared.remains (Heap.Remains.retain _ _) le_rfl
  | share shown => exact unshared.remains (Heap.Remains.retain _ _) le_rfl
  | lower given => exact unshared
  | giveBack given => exact unshared.remains (Heap.Remains.release _ _) le_rfl
  | @bind hand lent position name value previous? inside previous given allowed =>
      cases lent with
      | true => exact absurd (allowed rfl) never
      | false =>
          have exchanged := balanced.distinct.bound_exchanged inside previous value
          have remains := (Heap.Remains.enterSlot before.heap value).trans
            (Heap.Remains.leaveSlots _ previous?.toList)
          have apart : before.heap.Separated (([value] : List Address) +
              (hand.owned + before.results)) before.lent := by
            simpa [kept, given, Hand.own] using separated.heap
          apply unshared.fill apart mem_lent_of_bound
          · intro address container
            exact Or.inl (remains.isContainer container)
          · rw [Multiset.coe_singleton, add_left_comm, Multiset.singleton_add, ← exchanged]
            exact add_le_add remains.stored (Multiset.le_add_left _ _)
  | push =>
      rw [Scopes.bound_push]
      exact unshared
  | @pop frame last =>
      refine unshared.remains (Heap.Remains.leaveSlots _ _) ?_
      rw [Scopes.bound_dropFrame last]
      exact Multiset.le_add_left _ _
  | skip depth =>
      rw [Scopes.bound_skipFrom]
      exact unshared
  | amend shared found refills given =>
      exact exclusive.amends (amends_of_refills shared found refills given)
  | extend shared payload absent given =>
      exact (exclusive.withDefault _).amends (amends_of_extends shared payload given)
  | keep given => exact unshared.remains (Heap.Remains.setPinned _ _ _) le_rfl
  | take given => exact unshared.remains (Heap.Remains.setPinned _ _ _) le_rfl
  | handBack given within =>
      exact unshared.remains ((Heap.Remains.retain _ _).trans (Heap.Remains.releaseAll _ _)) le_rfl

end Ledger

end ScriptEngine
