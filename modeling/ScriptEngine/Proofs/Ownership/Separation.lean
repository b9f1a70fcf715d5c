import ScriptEngine.Proofs.Ownership.Certificate

/-!
# Separated ledgers

Containers that are owned, or kept as the results of calls, are apart from all
that is bound, shared or cached.  Each step of a run keeps them so: what is
stored or bound is lent, and only a whole tree can be.
-/

namespace ScriptEngine

namespace Heap

variable {heap before after : Heap} {kept lent : Multiset Address}

namespace Separated

theorem remains (separated : before.Separated kept lent) (remains : Remains before after)
    {kept' lent' : Multiset Address} (fewer : kept' ≤ kept)
    (less : ∀ {address}, address ∈ lent' → address ∈ lent) : after.Separated kept' lent' := by
  obtain ⟨owner, rank, certified⟩ := separated
  exact ⟨owner, rank, certified.remains remains fewer less⟩

theorem lend {value : Address} (separated : heap.Separated (value ::ₘ kept) lent) :
    heap.Separated kept (value ::ₘ lent) := by
  obtain ⟨owner, rank, certified⟩ := separated
  obtain ⟨owner', rank', lowered, _⟩ := certified.lend
  exact ⟨owner', rank', lowered⟩

theorem lt_size (separated : heap.Separated kept lent) {address : Address}
    (member : address ∈ kept + lent) : address < heap.cells.size := by
  obtain ⟨owner, rank, certified⟩ := separated
  apply certified.known
  rw [add_assoc]
  exact Multiset.mem_add.mpr (Or.inr member)

/-- What is built takes over what is kept. -/
theorem crafting (kept lent : Multiset Address) :
    Crafting fun heap pending owned => heap.Separated (pending + (owned + kept)) lent where
  enter {heap slots handles address} separated := by
    apply separated.remains (Remains.enterSlot heap address) _ fun inside => inside
    simp
  leave {heap slots handles address} separated := by
    apply separated.remains (Remains.leaveSlot heap address) _ fun inside => inside
    simp
  release {heap slots handles address} separated := by
    apply separated.remains (Remains.release heap address) _ fun inside => inside
    rw [Multiset.cons_add, Multiset.add_cons]
    exact Multiset.le_cons_self _ _
  allocate {heap slots handles} payload type separated := by
    obtain ⟨owner, rank, certified⟩ := separated
    rw [add_assoc] at certified
    rw [Multiset.cons_add, Multiset.add_cons]
    exact certified.allocate type

/-- What is built around lent objects is lent as well. -/
theorem crafting_lent (kept lent : Multiset Address) :
    Crafting fun heap pending owned => heap.Separated kept (pending + (owned + lent)) where
  enter {heap slots handles address} separated := by
    apply separated.remains (Remains.enterSlot heap address) le_rfl
    intro other member
    simpa using member
  leave {heap slots handles address} separated := by
    apply separated.remains (Remains.leaveSlot heap address) le_rfl
    intro other member
    simpa using member
  release {heap slots handles address} separated := by
    apply separated.remains (Remains.release heap address) le_rfl
    intro other member
    rw [Multiset.cons_add, Multiset.add_cons]
    exact Multiset.mem_cons_of_mem member
  allocate {heap slots handles} payload type separated := by
    obtain ⟨owner, rank, certified⟩ := separated
    rw [add_assoc] at certified
    rw [Multiset.cons_add, Multiset.add_cons]
    exact certified.allocate_lent type

end Separated

/-! ## Objects that are no containers -/

/-- Objects that exist, or did, and are no containers. -/
def Plain (heap : Heap) (addresses : Multiset Address) : Prop :=
  ∀ address ∈ addresses, address < heap.cells.size ∧ ¬ heap.IsContainer address

namespace Plain

variable {addresses : Multiset Address}

theorem remains (plain : before.Plain addresses) (remains : Remains before after) :
    after.Plain addresses := by
  intro address member
  obtain ⟨small, simple⟩ := plain address member
  exact ⟨Nat.lt_of_lt_of_le small remains.size,
    fun container => simple (remains.isContainer container)⟩

theorem allocate (plain : heap.Plain addresses) (type : StaticType) (payload : Payload) :
    (heap.allocate type payload).2.Plain addresses := by
  intro address member
  obtain ⟨small, simple⟩ := plain address member
  constructor
  · rw [size_allocate]
    exact Nat.lt_succ_of_lt small
  · intro container
    exact simple (isContainer_of_isContainer_allocate container small)

theorem crafting (addresses : Multiset Address) :
    Crafting fun heap _ _ => heap.Plain addresses where
  enter plain := plain.remains (Remains.enterSlot _ _)
  leave plain := plain.remains (Remains.leaveSlot _ _)
  release plain := plain.remains (Remains.release _ _)
  allocate payload type plain := plain.allocate type payload

end Plain

theorem not_isContainer_of_scalar? {address : Address} {value : Scalar}
    (found : heap.scalar? address = some value) : ¬ heap.IsContainer address := by
  rintro ⟨payload, present, shape⟩
  unfold scalar? at found
  rw [present] at found
  cases payload with
  | scalar value => exact shape
  | vector elements => simp at found
  | dict entries => simp at found

theorem lt_size_of_scalar? {address : Address} {value : Scalar}
    (found : heap.scalar? address = some value) : address < heap.cells.size := by
  unfold scalar? at found
  cases present : heap.payload? address with
  | none => simp [present] at found
  | some payload => exact lt_size_of_payload? present

end Heap

namespace Ledger

def kept (ledger : Ledger) : Multiset Address :=
  ledger.owned + ledger.results

def lent (ledger : Ledger) : Multiset Address :=
  ledger.shared + (ledger.scopes.bound + ledger.literals)

structure Separated (ledger : Ledger) : Prop where
  heap : ledger.heap.Separated ledger.kept ledger.lent
  literals : ledger.heap.Plain ledger.literals

variable {ledger : Ledger} {licence : Licence}

theorem mem_lent_of_bound {address : Address} (member : address ∈ ledger.scopes.bound) :
    address ∈ ledger.lent := by
  simp [lent, member]

theorem mem_lent_of_shared {address : Address} (member : address ∈ ledger.shared) :
    address ∈ ledger.lent :=
  Multiset.mem_add.mpr (Or.inl member)

namespace Separated

/-- A step in which objects at most go. -/
theorem remains {before after : Ledger} (separated : before.Separated)
    (remains : before.heap.Remains after.heap) (fewer : after.kept ≤ before.kept)
    (less : ∀ {address}, address ∈ after.lent → address ∈ before.lent)
    (literals : after.literals = before.literals) : after.Separated := by
  refine ⟨separated.heap.remains remains fewer less, ?_⟩
  rw [literals]
  exact separated.literals.remains remains

/-- Another handle on an object that is no container. -/
theorem mention {address : Address} (separated : ledger.Separated)
    (small : address < ledger.heap.cells.size) (simple : ¬ ledger.heap.IsContainer address) :
    ledger.heap.Separated (address ::ₘ ledger.kept) (address ::ₘ ledger.lent) := by
  obtain ⟨owner, rank, certified⟩ := separated.heap
  exact ⟨owner, rank, certified.mention small simple le_rfl fun inside => inside⟩

/-- What a walk comes across can be shared. -/
theorem share {address : Address} (separated : ledger.Separated)
    (shown : ledger.Shows address) :
    ledger.heap.Separated ledger.kept (address ::ₘ ledger.lent) := by
  obtain ⟨owner, rank, certified⟩ := separated.heap
  have lentOwner : (ledger.heap.IsContainer address → owner address = none) ∧
      address < ledger.heap.cells.size := by
    rcases shown with found | found | ⟨root, member, object, found, child⟩
    · exact ⟨certified.shared (mem_lent_of_bound found),
        certified.known (Multiset.mem_add.mpr (Or.inr (mem_lent_of_bound found)))⟩
    · exact ⟨certified.shared (mem_lent_of_shared found),
        certified.known (Multiset.mem_add.mpr (Or.inr (mem_lent_of_shared found)))⟩
    · have holds : ledger.heap.Holds root address :=
        ⟨object.payload, Heap.payload?_of_get? found, Payload.mem_children_of_mem_offers child⟩
      refine ⟨?_, certified.child_lt_size holds⟩
      intro container
      rw [certified.inherits holds container]
      exact certified.shared (mem_lent_of_shared member) holds.isContainer
  refine ⟨owner, rank, ?_⟩
  constructor
  · exact certified.inherits
  · exact certified.descends
  · exact certified.single
  · exact certified.rooted
  · intro other member container
    rcases Multiset.mem_cons.mp member with rfl | member
    · exact lentOwner.1 container
    · exact certified.shared member container
  · intro other member
    rw [Multiset.add_cons, Multiset.mem_cons] at member
    rcases member with rfl | member
    · exact lentOwner.2
    · exact certified.known member

/-- Arguments that a built-in function used up are gone, but for what it hands
back. -/
theorem gone_of_handBack {arguments : List Address} {value root : Address}
    {owned : Multiset Address} (separated : ledger.Separated)
    (given : ledger.owned = arguments + owned)
    (balanced : ((ledger.heap.retain value).releaseAll arguments).Balanced ledger.scopes.bound
      (value ::ₘ owned + (ledger.shared + (ledger.results + ledger.literals))))
    (member : root ∈ arguments) (container : ledger.heap.IsContainer root)
    (different : root ≠ value) :
    ¬ ((ledger.heap.retain value).releaseAll arguments).IsContainer root := by
  rintro ⟨payload, present, shape⟩
  obtain ⟨object, alive, _⟩ := Heap.payload?_eq_some_iff.mp present
  obtain ⟨owner, rank, certified⟩ := separated.heap
  have remains : ledger.heap.Remains ((ledger.heap.retain value).releaseAll arguments) :=
    (Heap.Remains.retain ledger.heap value).trans (Heap.Remains.releaseAll _ arguments)
  have kept : root ∈ ledger.kept := by
    rw [kept, given]
    simp [member]
  obtain ⟨unstored, once⟩ := certified.count_stored_of_mem_kept kept container
  have unlent := certified.not_mem_lent_of_mem_kept kept container
  have unstoredAfter : root ∉ ((ledger.heap.retain value).releaseAll arguments).stored := by
    intro stored
    have before := Multiset.mem_of_le remains.stored stored
    exact absurd (Multiset.count_pos.mpr before) (by omega)
  have unkept : root ∉ owned + ledger.results := by
    intro again
    have first := Multiset.count_pos.mpr (Multiset.mem_coe.mpr member)
    have second := Multiset.count_pos.mpr again
    rw [Ledger.kept, given, add_assoc, Multiset.count_add] at once
    omega
  have referred := balanced.mem_of_get? alive
  simp only [lent, Multiset.mem_add, Multiset.mem_cons] at referred unlent unkept
  tauto

end Separated

/-- What is built takes over what is owned. -/
theorem Separated.craft (separated : ledger.Separated) {heap : Heap}
    {given made owned : Multiset Address} (crafted : Heap.Crafted ledger.heap given heap made)
    (split : ledger.owned = given + owned) :
    Separated { ledger with heap := heap, owned := made + owned } := by
  have crafting := Heap.Separated.crafting ledger.results ledger.lent
  have kept : ledger.heap.Separated (0 + (given + owned + ledger.results)) ledger.lent := by
    rw [zero_add, ← split]
    exact separated.heap
  have made := crafted crafting kept
  rw [zero_add] at made
  exact ⟨made, @crafted _ (Heap.Plain.crafting ledger.literals) 0 0 separated.literals⟩

theorem Separated.withDefault (separated : ledger.Separated) (type : StaticType) :
    (ledger.withDefault type).Separated :=
  separated.craft (Heap.Crafted.newDefault ledger.heap type) (zero_add ledger.owned).symm

theorem Separated.amends {before after : Ledger} (amends : before.Amends after)
    (separated : before.Separated) : after.Separated := by
  cases amends with
  | @intro address object payload added removed owned shared found container kept exchanged
      given =>
      have entered := Heap.Remains.enterSlots before.heap added
      have left := Heap.Remains.leaveSlots
        ((before.heap.enterSlots added).setPayload address payload) removed
      have same : (before.heap.enterSlots added).payload? address = some object.payload := by
        rw [Heap.payload?_enterSlots, Heap.payload?_of_get? found]
      obtain ⟨current, alive, payloads⟩ := Heap.payload?_eq_some_iff.mp same
      rw [← payloads] at container exchanged
      have slotted : (before.heap.enterSlots added).Separated (added + (owned + before.results))
          before.lent := by
        apply separated.heap.remains entered _ fun inside => inside
        simp [Ledger.kept, given, add_assoc]
      obtain ⟨owner, rank, certified⟩ := slotted
      have amended := certified.setPayload (by simp [lent, shared]) alive container kept exchanged
      constructor
      · apply amended.remains left le_rfl
        intro other member
        simpa [lent, or_assoc] using member
      · apply Heap.Plain.remains _ left
        intro other literal
        obtain ⟨small, simple⟩ := separated.literals.remains entered other literal
        refine ⟨by rwa [Heap.setPayload, Heap.size_modify], ?_⟩
        rwa [Heap.isContainer_setPayload_iff alive container kept]

/-- A new literal is a scalar, so that it can be owned and lent at the same time. -/
theorem Separated.cache (separated : ledger.Separated) (value : Scalar) :
    Separated { ledger with
      heap := (ledger.heap.newScalar value).2.retain (ledger.heap.newScalar value).1
      literals := (ledger.heap.newScalar value).1 ::ₘ ledger.literals
      owned := (ledger.heap.newScalar value).1 ::ₘ ledger.owned } := by
  have made := separated.craft (Heap.Crafted.newScalar ledger.heap value) (zero_add _).symm
  have simple : ¬ (ledger.heap.newScalar value).2.IsContainer (ledger.heap.newScalar value).1 :=
    Heap.not_isContainer_of_scalar? (ledger.heap.scalar?_newScalar value)
  have small : (ledger.heap.newScalar value).1 < (ledger.heap.newScalar value).2.cells.size :=
    made.heap.lt_size (by simp [kept])
  have retained := Heap.Remains.retain (ledger.heap.newScalar value).2
    (ledger.heap.newScalar value).1
  constructor
  · apply (made.mention small simple).remains retained
    · simp [kept, Multiset.le_cons_self]
    · intro other member
      simp only [lent, Multiset.mem_add, Multiset.mem_cons] at member ⊢
      tauto
  · have plain : (ledger.heap.newScalar value).2.Plain
        ((ledger.heap.newScalar value).1 ::ₘ ledger.literals) := by
      intro other member
      rcases Multiset.mem_cons.mp member with rfl | member
      · exact ⟨small, simple⟩
      · exact made.literals other member
    exact plain.remains retained

/-- A value that is bound is lent from then on, and so is what it takes the name from. -/
theorem Separated.bind {hand : Hand} {lent : Bool} {position : Nat} {name : Name}
    {value : Address} {previous? : Option Address} (separated : ledger.Separated)
    (previous : ledger.scopes.get? position name = previous?)
    (given : ledger.toHand = hand.carry lent value) :
    Separated { ledger with
      heap := (ledger.heap.enterSlot value).leaveSlots previous?.toList
      scopes := ledger.scopes.modifyFrame position (·.put name value)
      toHand := hand.shareAll previous?.toList } := by
  have remains : ledger.heap.Remains
      ((ledger.heap.enterSlot value).leaveSlots previous?.toList) :=
    (Heap.Remains.enterSlot ledger.heap value).trans (Heap.Remains.leaveSlots _ _)
  have lowered : ledger.heap.Separated (hand.owned + ledger.results)
      (value ::ₘ (hand.shared + (ledger.scopes.bound + ledger.literals))) := by
    have start := separated.heap
    cases lent with
    | false =>
        apply Heap.Separated.lend
        simpa [kept, Ledger.lent, given, Hand.own] using start
    | true => simpa [kept, Ledger.lent, given, Hand.share] using start
  refine ⟨?_, separated.literals.remains remains⟩
  apply lowered.remains remains le_rfl
  intro other member
  have rebound := @Scopes.mem_of_rebound _ _ _ _ value other previous
  simp only [Ledger.lent, Hand.shareAll, Multiset.mem_add, Multiset.mem_cons,
    Multiset.mem_coe] at member ⊢
  tauto

/-- What a built-in function hands back is owned instead of the arguments. -/
theorem Separated.handBack {arguments : List Address} {value : Address}
    {owned : Multiset Address} (separated : ledger.Separated)
    (given : ledger.owned = arguments + owned) (within : ledger.heap.Within value arguments)
    (balanced : Balanced { ledger with
      heap := (ledger.heap.retain value).releaseAll arguments
      owned := value ::ₘ owned }) :
    Separated { ledger with
      heap := (ledger.heap.retain value).releaseAll arguments
      owned := value ::ₘ owned } := by
  have remains : ledger.heap.Remains ((ledger.heap.retain value).releaseAll arguments) :=
    (Heap.Remains.retain ledger.heap value).trans (Heap.Remains.releaseAll _ arguments)
  refine ⟨?_, separated.literals.remains remains⟩
  obtain ⟨owner, rank, certified⟩ := separated.heap
  rw [kept, given, add_assoc] at certified
  have succeeded := certified.handOver within remains fun root member container different =>
    separated.gone_of_handBack given balanced.heap member container different
  simpa [kept, lent] using succeeded

/-- Steps keep a balanced ledger separated. -/
theorem Separated.step :
    Lasting licence fun ledger => ledger.Balanced ∧ ledger.Separated := by
  rintro before after step ⟨balanced, separated⟩
  have balancedAfter := Balanced.step step balanced
  refine ⟨balancedAfter, ?_⟩
  cases step with
  | craft makes split => exact separated.craft makes.crafted split
  | cache value => exact separated.cache value
  | @duplicate address scalar =>
      have simple : address < before.heap.cells.size ∧ ¬ before.heap.IsContainer address := by
        rcases scalar with ⟨value, found⟩ | literal
        · exact ⟨Heap.lt_size_of_scalar? found, Heap.not_isContainer_of_scalar? found⟩
        · exact separated.literals address literal
      have retained := Heap.Remains.retain before.heap address
      refine ⟨?_, separated.literals.remains retained⟩
      apply (separated.mention simple.1 simple.2).remains retained
      · simp [kept]
      · intro other member
        exact Multiset.mem_cons_of_mem member
  | @share address shown =>
      refine ⟨?_, separated.literals.remains (Heap.Remains.retain _ _)⟩
      have shared := separated.share shown
      apply shared.remains (Heap.Remains.retain before.heap address) le_rfl
      intro other member
      simpa [lent] using member
  | @lower address owned given =>
      have lowered : before.heap.Separated (owned + before.results) (address ::ₘ before.lent) := by
        apply Heap.Separated.lend
        rw [← Multiset.cons_add, ← given]
        exact separated.heap
      refine ⟨?_, separated.literals⟩
      apply lowered.remains (Heap.Remains.refl _) le_rfl
      intro other member
      simpa [lent] using member
  | @giveBack address shared given =>
      refine separated.remains (Heap.Remains.release before.heap address) le_rfl ?_ rfl
      intro other member
      simp only [lent, given, Multiset.mem_add, Multiset.mem_cons] at member ⊢
      tauto
  | bind inside previous given allowed => exact separated.bind previous given
  | push =>
      refine separated.remains (Heap.Remains.refl _) le_rfl ?_ rfl
      intro other member
      simpa [lent] using member
  | @pop frame last =>
      refine separated.remains (Heap.Remains.leaveSlots before.heap frame.values) le_rfl ?_ rfl
      intro other member
      simp only [lent, Scopes.bound_dropFrame last, Multiset.mem_add] at member ⊢
      tauto
  | skip depth =>
      refine separated.remains (Heap.Remains.refl _) le_rfl ?_ rfl
      intro other member
      simpa [lent] using member
  | amend shared found refills given =>
      exact separated.amends (amends_of_refills shared found refills given)
  | extend shared payload absent given =>
      exact (separated.withDefault _).amends (amends_of_extends shared payload given)
  | @keep value owned given =>
      refine separated.remains (Heap.Remains.setPinned before.heap value true) ?_
        (fun inside => inside) rfl
      simp [kept, given]
  | @take value results given =>
      refine separated.remains (Heap.Remains.setPinned before.heap value false) ?_
        (fun inside => inside) rfl
      simp [kept, given]
  | handBack given within => exact separated.handBack given within balancedAfter

end Ledger

end ScriptEngine
