import ScriptEngine.Proofs.Accounting.Balance

/-!
# Certificates of ownership

Some handles are kept apart and the others are lent.  A certificate records
an owner for every container: the kept container whose tree it belongs to, or
nothing if it can be reached from lent handles.  A container that has an owner
is referred to once, so that kept trees share no container with anything else.
Ranks fall from a container to those in its slots, and rule cycles out.
-/

namespace ScriptEngine

namespace Heap

def IsContainer (heap : Heap) (address : Address) : Prop :=
  ∃ payload, heap.payload? address = some payload ∧ payload.IsContainer

/-- Whether one object has a slot that holds another. -/
def Holds (heap : Heap) (holder child : Address) : Prop :=
  ∃ payload, heap.payload? holder = some payload ∧ child ∈ payload.children

variable {heap before after : Heap}

theorem Holds.isContainer {holder child : Address} (holds : heap.Holds holder child) :
    heap.IsContainer holder := by
  obtain ⟨payload, found, member⟩ := holds
  refine ⟨payload, found, ?_⟩
  cases payload with
  | scalar value => simp [Payload.children] at member
  | vector elements => trivial
  | dict entries => trivial

theorem mem_stored_iff_holds {child : Address} :
    child ∈ heap.stored ↔ ∃ holder, heap.Holds holder child := by
  rw [mem_stored]
  constructor
  · rintro ⟨holder, object, found, member⟩
    exact ⟨holder, object.payload, payload?_of_get? found, member⟩
  · rintro ⟨holder, payload, found, member⟩
    obtain ⟨object, alive, rfl⟩ := payload?_eq_some_iff.mp found
    exact ⟨holder, object, alive, member⟩

theorem lt_size_of_payload? {address : Address} {payload : Payload}
    (found : heap.payload? address = some payload) : address < heap.cells.size := by
  obtain ⟨object, alive, _⟩ := payload?_eq_some_iff.mp found
  exact lt_size_of_get?_eq_some alive

theorem IsContainer.lt_size {address : Address} (container : heap.IsContainer address) :
    address < heap.cells.size := by
  obtain ⟨payload, found, _⟩ := container
  exact lt_size_of_payload? found

/-- Two holders have two slots. -/
theorem two_le_count_stored {first second child : Address} (one : heap.Holds first child)
    (other : heap.Holds second child) (different : first ≠ second) :
    2 ≤ heap.stored.count child := by
  obtain ⟨payload, found, member⟩ := one
  obtain ⟨object, alive, rfl⟩ := payload?_eq_some_iff.mp found
  obtain ⟨payload', found', member'⟩ := other
  obtain ⟨object', alive', rfl⟩ := payload?_eq_some_iff.mp found'
  have split := stored_erase alive
  have remaining : child ∈ (heap.erase first).stored := by
    apply mem_stored.mpr
    refine ⟨second, object', ?_, member'⟩
    rw [get?_erase, if_neg different]
    exact alive'
  have inside := Multiset.count_pos.mpr remaining
  have here : 0 < Multiset.count child (object.payload.children : Multiset Address) :=
    Multiset.count_pos.mpr (Multiset.mem_coe.mpr member)
  rw [← split, Multiset.count_add]
  omega

/-! ## What remains of a heap -/

/-- Objects may be gone and counts be different, but nothing else. -/
structure Remains (before after : Heap) : Prop where
  payload : ∀ {address payload}, after.payload? address = some payload →
    before.payload? address = some payload
  type : ∀ {address payload}, after.payload? address = some payload →
    after.type address = before.type address
  stored : after.stored ≤ before.stored
  cells : after.cells.size = before.cells.size

namespace Remains

theorem refl (heap : Heap) : Remains heap heap :=
  ⟨fun found => found, fun _ => rfl, le_refl _, rfl⟩

theorem trans {middle : Heap} (first : Remains before middle) (second : Remains middle after) :
    Remains before after :=
  ⟨fun found => first.payload (second.payload found),
    fun found => (second.type found).trans (first.type (second.payload found)),
    second.stored.trans first.stored, second.cells.trans first.cells⟩

theorem size (remains : Remains before after) : before.cells.size ≤ after.cells.size :=
  remains.cells.ge

theorem isContainer (remains : Remains before after) {address : Address}
    (container : after.IsContainer address) : before.IsContainer address := by
  obtain ⟨payload, found, shape⟩ := container
  exact ⟨payload, remains.payload found, shape⟩

theorem holds (remains : Remains before after) {holder child : Address}
    (holds : after.Holds holder child) : before.Holds holder child := by
  obtain ⟨payload, found, member⟩ := holds
  exact ⟨payload, remains.payload found, member⟩

theorem modify {address : Address} {change : Object → Object}
    (keeps : ∀ object, (change object).payload = object.payload)
    (types : ∀ object, (change object).type = object.type) :
    Remains heap (heap.modify address change) := by
  constructor
  · intro other payload found
    rwa [payload?_modify keeps] at found
  · intro other payload _
    exact type_modify types other
  · have same : (heap.modify address change).stored = heap.stored := by
      apply stored_modify
      intro object
      rw [keeps]
    exact same.le
  · rw [size_modify]

theorem retain (heap : Heap) (address : Address) : Remains heap (heap.retain address) :=
  modify (fun _ => rfl) fun _ => rfl

theorem setPinned (heap : Heap) (address : Address) (pinned : Bool) :
    Remains heap (heap.setPinned address pinned) :=
  modify (fun _ => rfl) fun _ => rfl

theorem enterSlot (heap : Heap) (address : Address) : Remains heap (heap.enterSlot address) :=
  modify (fun _ => rfl) fun _ => rfl

theorem enterSlots (heap : Heap) (addresses : List Address) :
    Remains heap (heap.enterSlots addresses) := by
  induction addresses generalizing heap with
  | nil => exact refl heap
  | cons address others induction =>
      exact (enterSlot heap address).trans (induction (heap.enterSlot address))

theorem leaveSlot (heap : Heap) (address : Address) : Remains heap (heap.leaveSlot address) := by
  simp only [Heap.leaveSlot]
  split
  · have marked : Remains heap { heap with underflowed := true } :=
      ⟨fun found => found, fun _ => rfl, le_refl _, rfl⟩
    exact marked.trans (modify (fun _ => rfl) fun _ => rfl)
  · exact modify (fun _ => rfl) fun _ => rfl

theorem leaveSlots (heap : Heap) (addresses : List Address) :
    Remains heap (heap.leaveSlots addresses) := by
  induction addresses generalizing heap with
  | nil => exact refl heap
  | cons address others induction =>
      exact (leaveSlot heap address).trans (induction (heap.leaveSlot address))

theorem erase {address : Address} {object : Object} (found : heap.get? address = some object) :
    Remains heap (heap.erase address) := by
  constructor
  · intro other payload present
    obtain ⟨kept, alive, rfl⟩ := payload?_eq_some_iff.mp present
    rw [get?_erase] at alive
    split at alive
    · simp at alive
    · exact payload?_of_get? alive
  · intro other payload present
    obtain ⟨kept, alive, _⟩ := payload?_eq_some_iff.mp present
    have same := alive
    rw [get?_erase] at same
    split at same
    · simp at same
    · rw [Heap.type, Heap.type, alive, same]
  · rw [← stored_erase found]
    exact Multiset.le_add_right _ _
  · simp [Heap.erase]

theorem releaseAll (heap : Heap) (addresses : List Address) :
    Remains heap (heap.releaseAll addresses) :=
  releaseAll_induction (motive := Remains heap)
    (fun _ remains => remains.trans (modify (fun _ => rfl) fun _ => rfl))
    (fun found remains => remains.trans (erase found))
    (fun address remains => remains.trans (leaveSlot _ address)) (refl heap) addresses

theorem release (heap : Heap) (address : Address) : Remains heap (heap.release address) :=
  releaseAll heap [address]

theorem dropSlots (heap : Heap) (addresses : List Address) :
    Remains heap (heap.dropSlots addresses) :=
  (leaveSlots heap addresses).trans (releaseAll _ addresses)

theorem declare (scopes : Scopes) (heap : Heap) (name : Name) (value : Address) :
    Remains heap (scopes.declare heap name value).2 :=
  (enterSlot heap value).trans (dropSlots _ _)

theorem pop (scopes : Scopes) (heap : Heap) : Remains heap (scopes.pop heap).2 := by
  unfold Scopes.pop
  split
  · rename_i frame _
    exact dropSlots heap frame.values
  · exact refl heap

theorem popMany (scopes : Scopes) (heap : Heap) (count : Nat) :
    Remains heap (scopes.popMany heap count).2 := by
  induction count generalizing scopes heap with
  | zero => exact refl heap
  | succ count induction => exact (pop scopes heap).trans (induction _ _)

end Remains

/-! ## Shapes after changes -/

theorem isContainer_setPayload_iff {container : Address} {object : Object} {payload : Payload}
    (found : heap.get? container = some object) (before : object.payload.IsContainer)
    (after : payload.IsContainer) {address : Address} :
    (heap.setPayload container payload).IsContainer address ↔ heap.IsContainer address := by
  have same : ∀ other, (heap.setPayload container payload).payload? other =
      if container = other then some payload else heap.payload? other := by
    intro other
    rw [payload?, setPayload, get?_modify]
    split
    · rename_i equal
      subst equal
      simp [found]
    · rfl
  unfold IsContainer
  rw [same]
  split
  · rename_i equal
    subst equal
    rw [payload?_of_get? found]
    constructor
    · rintro _
      exact ⟨object.payload, rfl, before⟩
    · rintro _
      exact ⟨payload, rfl, after⟩
  · rfl

theorem holds_setPayload {container : Address} {object : Object} {payload : Payload}
    (found : heap.get? container = some object) {holder child : Address}
    (holds : (heap.setPayload container payload).Holds holder child) :
    (holder = container ∧ child ∈ payload.children) ∨ heap.Holds holder child := by
  obtain ⟨current, reached, member⟩ := holds
  rw [payload?, setPayload, get?_modify] at reached
  split at reached
  · rename_i equal
    subst equal
    simp only [found, Option.map_some, Option.some.injEq] at reached
    subst reached
    exact Or.inl ⟨rfl, member⟩
  · exact Or.inr ⟨current, reached, member⟩

section Allocation

variable {payload : Payload} {type : StaticType}

theorem payload?_allocate (address : Address) :
    (heap.allocate type payload).2.payload? address =
      if address = heap.cells.size then some payload else heap.payload? address := by
  rw [payload?, get?_allocate]
  split
  · rfl
  · rfl

theorem holds_allocate {holder child : Address}
    (holds : (heap.allocate type payload).2.Holds holder child) :
    (holder = heap.cells.size ∧ child ∈ payload.children) ∨ heap.Holds holder child := by
  obtain ⟨current, reached, member⟩ := holds
  rw [payload?_allocate] at reached
  split at reached
  · rename_i same
    cases reached
    exact Or.inl ⟨same, member⟩
  · exact Or.inr ⟨current, reached, member⟩

theorem isContainer_allocate {address : Address}
    (container : (heap.allocate type payload).2.IsContainer address) :
    address = heap.cells.size ∨ heap.IsContainer address := by
  obtain ⟨current, reached, shape⟩ := container
  rw [payload?_allocate] at reached
  split at reached
  · rename_i same
    exact Or.inl same
  · exact Or.inr ⟨current, reached, shape⟩

theorem isContainer_of_isContainer_allocate {address : Address}
    (container : (heap.allocate type payload).2.IsContainer address)
    (old : address < heap.cells.size) : heap.IsContainer address :=
  (isContainer_allocate container).resolve_left (Nat.ne_of_lt old)

theorem size_allocate : (heap.allocate type payload).2.cells.size = heap.cells.size + 1 := by
  simp [Heap.allocate]

end Allocation

/-! ## Certificates -/

structure Certified (owner : Address → Option Address) (rank : Address → Nat) (heap : Heap)
    (kept lent : Multiset Address) : Prop where
  inherits : ∀ {holder child}, heap.Holds holder child → heap.IsContainer child →
    owner child = owner holder
  descends : ∀ {holder child}, heap.Holds holder child → heap.IsContainer child →
    rank child < rank holder
  single : ∀ {address}, heap.IsContainer address → owner address ≠ none →
    (heap.stored + kept).count address ≤ 1
  rooted : ∀ {address}, address ∈ kept → heap.IsContainer address →
    owner address = some address
  shared : ∀ {address}, address ∈ lent → heap.IsContainer address → owner address = none
  known : ∀ {address}, address ∈ heap.stored + kept + lent → address < heap.cells.size

/-- Kept containers are the roots of trees that nothing else refers to. -/
def Separated (heap : Heap) (kept lent : Multiset Address) : Prop :=
  ∃ owner rank, Certified owner rank heap kept lent

/-- How a certificate changes when kept values are lent: they get below
everything that was lent before. -/
structure Lowers (heap : Heap) (values : List Address) (owner owner' : Address → Option Address)
    (rank rank' : Address → Nat) : Prop where
  stays : ∀ {address}, owner address = none → owner' address = none
  ordered : ∀ {lower upper}, owner lower = none → owner upper = none →
    rank lower < rank upper → rank' lower < rank' upper
  below : ∀ {value upper}, value ∈ values → heap.IsContainer value → owner upper = none →
    rank' value < rank' upper

theorem exists_rank_bound (rank : Address → Nat) (size : Nat) :
    ∃ bound, ∀ address < size, rank address < bound := by
  induction size with
  | zero => exact ⟨0, fun address small => absurd small (Nat.not_lt_zero address)⟩
  | succ size induction =>
      obtain ⟨bound, bounded⟩ := induction
      refine ⟨max bound (rank size + 1), ?_⟩
      intro address small
      by_cases last : address = size
      · subst last
        omega
      · have earlier := bounded address (by omega)
        omega

namespace Certified

variable {owner : Address → Option Address} {rank : Address → Nat}
variable {kept lent : Multiset Address}

theorem count_le_one (certified : Certified owner rank heap kept lent) {address : Address}
    (member : address ∈ kept) (container : heap.IsContainer address) :
    (heap.stored + kept).count address ≤ 1 := by
  apply certified.single container
  rw [certified.rooted member container]
  simp

/-- The only reference to a kept container is the one that is kept. -/
theorem count_stored_of_mem_kept (certified : Certified owner rank heap kept lent)
    {address : Address} (member : address ∈ kept) (container : heap.IsContainer address) :
    heap.stored.count address = 0 ∧ kept.count address = 1 := by
  have once := certified.count_le_one member container
  have here := Multiset.count_pos.mpr member
  rw [Multiset.count_add] at once
  omega

theorem not_mem_lent_of_mem_kept (certified : Certified owner rank heap kept lent)
    {address : Address} (member : address ∈ kept) (container : heap.IsContainer address) :
    address ∉ lent := by
  intro also
  have root := certified.rooted member container
  rw [certified.shared also container] at root
  simp at root

theorem child_lt_size (certified : Certified owner rank heap kept lent) {holder child : Address}
    (holds : heap.Holds holder child) : child < heap.cells.size := by
  apply certified.known
  simp [mem_stored_iff_holds.mpr ⟨holder, holds⟩]

theorem remains (certified : Certified owner rank before kept lent)
    (remains : Remains before after) {kept' lent' : Multiset Address} (fewer : kept' ≤ kept)
    (less : ∀ {address}, address ∈ lent' → address ∈ lent) :
    Certified owner rank after kept' lent' := by
  have counted := add_le_add remains.stored fewer
  constructor
  · intro holder child holds container
    exact certified.inherits (remains.holds holds) (remains.isContainer container)
  · intro holder child holds container
    exact certified.descends (remains.holds holds) (remains.isContainer container)
  · intro address container owned
    exact (Multiset.le_iff_count.mp counted address).trans
      (certified.single (remains.isContainer container) owned)
  · intro address member container
    exact certified.rooted (Multiset.mem_of_le fewer member) (remains.isContainer container)
  · intro address member container
    exact certified.shared (less member) (remains.isContainer container)
  · intro address member
    apply Nat.lt_of_lt_of_le (certified.known _) remains.size
    rw [Multiset.mem_add] at member ⊢
    exact member.imp (Multiset.mem_of_le counted) less

/-- Objects that are no containers can be referred to without limits. -/
theorem mention (certified : Certified owner rank heap kept lent) {address : Address}
    (small : address < heap.cells.size) (simple : ¬ heap.IsContainer address)
    {kept' lent' : Multiset Address} (added : kept' ≤ address ::ₘ kept)
    (spread : ∀ {other}, other ∈ lent' → other ∈ address ::ₘ lent) :
    Certified owner rank heap kept' lent' := by
  have different : ∀ {other : Address}, heap.IsContainer other → other ≠ address := by
    rintro other container rfl
    exact simple container
  constructor
  · exact certified.inherits
  · exact certified.descends
  · intro other container owned
    have once := certified.single container owned
    have more := Multiset.le_iff_count.mp added other
    rw [Multiset.count_cons_of_ne (different container)] at more
    rw [Multiset.count_add] at once ⊢
    omega
  · intro other member container
    have present := Multiset.mem_of_le added member
    rw [Multiset.mem_cons] at present
    exact certified.rooted (present.resolve_left (different container)) container
  · intro other member container
    have present := spread member
    rw [Multiset.mem_cons] at present
    exact certified.shared (present.resolve_left (different container)) container
  · intro other member
    by_cases same : other = address
    · subst same
      exact small
    · apply certified.known
      simp only [Multiset.mem_add] at member ⊢
      rcases member with (stored | member) | member
      · exact Or.inl (Or.inl stored)
      · have present := Multiset.mem_of_le added member
        rw [Multiset.mem_cons] at present
        exact Or.inl (Or.inr (present.resolve_left same))
      · have present := spread member
        rw [Multiset.mem_cons] at present
        exact Or.inr (present.resolve_left same)

/-! ## Lending what was kept -/

theorem lend {value : Address} (certified : Certified owner rank heap (value ::ₘ kept) lent) :
    ∃ owner' rank', Certified owner' rank' heap kept (value ::ₘ lent) ∧
      Lowers heap [value] owner owner' rank rank' := by
  obtain ⟨bound, bounded⟩ := exists_rank_bound rank heap.cells.size
  refine ⟨fun address => if owner address = some value then none else owner address,
    fun address => if owner address = none then rank address + bound else rank address, ?_, ?_⟩
  · constructor
    · intro holder child holds container
      simp only [certified.inherits holds container]
    · intro holder child holds container
      have falls := certified.descends holds container
      simp only [certified.inherits holds container]
      split
      · omega
      · exact falls
    · intro address container owned
      have before : owner address ≠ none := by
        intro unowned
        simp [unowned] at owned
      have once := certified.single container before
      rw [Multiset.count_add] at once ⊢
      exact (Nat.add_le_add_left (Multiset.count_le_count_cons _ _ _) _).trans once
    · intro address member container
      have root := certified.rooted (Multiset.mem_cons_of_mem member) container
      have once := certified.count_stored_of_mem_kept (Multiset.mem_cons_of_mem member) container
      have different : address ≠ value := by
        rintro rfl
        have again := Multiset.count_pos.mpr member
        rw [Multiset.count_cons_self] at once
        omega
      simp [root, different]
    · intro address member container
      rw [Multiset.mem_cons] at member
      rcases member with rfl | member
      · simp [certified.rooted (Multiset.mem_cons_self _ _) container]
      · simp [certified.shared member container]
    · intro address member
      apply certified.known
      simp only [Multiset.mem_add, Multiset.mem_cons] at member ⊢
      tauto
  · constructor
    · intro address unowned
      simp [unowned]
    · intro lower upper lowerUnowned upperUnowned falls
      simp only [lowerUnowned, upperUnowned, if_true]
      omega
    · intro other upper member container unowned
      rw [List.mem_singleton] at member
      subst member
      have small := bounded other container.lt_size
      simp only [certified.rooted (Multiset.mem_cons_self _ _) container, unowned, if_true]
      simp only [reduceCtorEq, if_false]
      omega

theorem lendAll {values : List Address}
    (certified : Certified owner rank heap (values + kept) lent) :
    ∃ owner' rank', Certified owner' rank' heap kept (values + lent) ∧
      Lowers heap values owner owner' rank rank' := by
  induction values generalizing owner rank lent with
  | nil =>
      refine ⟨owner, rank, by simpa using certified, ?_⟩
      exact ⟨fun unowned => unowned, fun _ _ falls => falls, by simp⟩
  | cons value others induction =>
      rw [← Multiset.cons_coe, Multiset.cons_add] at certified
      obtain ⟨middleOwner, middleRank, middle, first⟩ := certified.lend
      obtain ⟨owner', rank', last, second⟩ := induction middle
      refine ⟨owner', rank', ?_, ?_⟩
      · rw [Multiset.add_cons] at last
        rw [← Multiset.cons_coe, Multiset.cons_add]
        exact last
      · constructor
        · intro address unowned
          exact second.stays (first.stays unowned)
        · intro lower upper lowerUnowned upperUnowned falls
          exact second.ordered (first.stays lowerUnowned) (first.stays upperUnowned)
            (first.ordered lowerUnowned upperUnowned falls)
        · intro other upper member container unowned
          rcases List.mem_cons.mp member with rfl | member
          · have open' := middle.shared (Multiset.mem_cons_self _ _) container
            exact second.ordered open' (first.stays unowned)
              (first.below (List.mem_singleton_self _) container unowned)
          · exact second.below member container (first.stays unowned)

/-! ## New payloads and new objects -/

/-- A container that is lent takes over what was kept, and gives back what it
held. -/
theorem setPayload {container : Address} {object : Object} {payload : Payload}
    {added removed : List Address} (certified : Certified owner rank heap (added + kept) lent)
    (member : container ∈ lent) (found : heap.get? container = some object)
    (before : object.payload.IsContainer) (after : payload.IsContainer)
    (exchanged : (removed : Multiset Address) + payload.children =
      added + object.payload.children) :
    Separated (heap.setPayload container payload) kept (removed + lent) := by
  obtain ⟨owner', rank', lowered, lowers⟩ := certified.lendAll
  have holder : heap.IsContainer container :=
    ⟨object.payload, payload?_of_get? found, before⟩
  have unowned := certified.shared member holder
  have held : ∀ child ∈ object.payload.children, heap.Holds container child :=
    fun child inside => ⟨object.payload, payload?_of_get? found, inside⟩
  have lentOwner : ∀ {child : Address}, child ∈ (added : Multiset Address) +
      object.payload.children → heap.IsContainer child → owner' child = none := by
    intro child inside shape
    rcases Multiset.mem_add.mp inside with new | old
    · exact lowered.shared (Multiset.mem_add.mpr (Or.inl new)) shape
    · rw [lowered.inherits (held child old) shape]
      exact lowers.stays unowned
  have lentRank : ∀ {child : Address}, child ∈ (added : Multiset Address) +
      object.payload.children → heap.IsContainer child → rank' child < rank' container := by
    intro child inside shape
    rcases Multiset.mem_add.mp inside with new | old
    · exact lowers.below new shape unowned
    · exact lowered.descends (held child old) shape
  have slots : (heap.setPayload container payload).stored + (removed : Multiset Address) =
      heap.stored + added := by
    apply add_right_cancel (b := (object.payload.children : Multiset Address))
    calc
      (heap.setPayload container payload).stored + removed + object.payload.children =
          (heap.setPayload container payload).stored + object.payload.children + removed := by
        ac_rfl
      _ = heap.stored + (removed + payload.children) := by
        rw [stored_setPayload found payload]
        ac_rfl
      _ = heap.stored + added + object.payload.children := by rw [exchanged, add_assoc]
  have shapes : ∀ {address : Address}, (heap.setPayload container payload).IsContainer address →
      heap.IsContainer address := (isContainer_setPayload_iff found before after).mp
  have current : ∀ {child : Address}, child ∈ payload.children →
      child ∈ (added : Multiset Address) + object.payload.children := by
    intro child inside
    rw [← exchanged]
    exact Multiset.mem_add.mpr (Or.inr inside)
  refine ⟨owner', rank', ?_⟩
  constructor
  · intro holder child holds shape
    rcases holds_setPayload found holds with ⟨rfl, inside⟩ | earlier
    · rw [lentOwner (current inside) (shapes shape)]
      exact (lowers.stays unowned).symm
    · exact lowered.inherits earlier (shapes shape)
  · intro holder child holds shape
    rcases holds_setPayload found holds with ⟨rfl, inside⟩ | earlier
    · exact lentRank (current inside) (shapes shape)
    · exact lowered.descends earlier (shapes shape)
  · intro address shape owned
    have once := lowered.single (shapes shape) owned
    have counted := congrArg (Multiset.count address) slots
    have absent : Multiset.count address (added : Multiset Address) = 0 := by
      rw [Multiset.count_eq_zero]
      intro inside
      exact owned (lentOwner (Multiset.mem_add.mpr (Or.inl inside)) (shapes shape))
    simp only [Multiset.count_add] at once counted ⊢
    omega
  · intro address inside shape
    exact lowered.rooted inside (shapes shape)
  · intro address inside shape
    rcases Multiset.mem_add.mp inside with gone | stays
    · apply lentOwner _ (shapes shape)
      rw [← exchanged]
      exact Multiset.mem_add.mpr (Or.inl gone)
    · exact lowered.shared (Multiset.mem_add.mpr (Or.inr stays)) (shapes shape)
  · intro address inside
    rw [Heap.setPayload, size_modify]
    apply lowered.known
    have regrouped : address ∈ (heap.setPayload container payload).stored + removed +
        (kept + lent) := by
      simp only [Multiset.mem_add] at inside ⊢
      tauto
    rw [slots] at regrouped
    simp only [Multiset.mem_add] at regrouped ⊢
    tauto

/-- A new object takes over the trees of its slots. -/
theorem allocate {payload : Payload}
    (certified : Certified owner rank heap (payload.children + kept) lent) (type : StaticType) :
    Separated (heap.allocate type payload).2 (heap.cells.size ::ₘ kept) lent := by
  obtain ⟨bound, bounded⟩ := exists_rank_bound rank heap.cells.size
  have small : ∀ {address : Address}, address ∈ heap.stored + (payload.children + kept) + lent →
      address < heap.cells.size := certified.known
  have childSmall : ∀ {child : Address}, child ∈ payload.children → child < heap.cells.size := by
    intro child inside
    apply small
    simp [inside]
  refine ⟨fun address =>
      if address = heap.cells.size ∨ ∃ child ∈ payload.children, owner address = some child then
        some heap.cells.size
      else owner address,
    fun address => if address = heap.cells.size then bound else rank address, ?_⟩
  constructor
  · intro holder child holds container
    rcases holds_allocate holds with ⟨rfl, inside⟩ | earlier
    · have root := certified.rooted (by simp [inside]) (isContainer_of_isContainer_allocate container (childSmall inside))
      rw [if_pos (Or.inr ⟨child, inside, root⟩), if_pos (Or.inl rfl)]
    · have holderSmall := earlier.isContainer.lt_size
      have childBefore := certified.child_lt_size earlier
      simp only [certified.inherits earlier (isContainer_of_isContainer_allocate container childBefore),
        Nat.ne_of_lt holderSmall, Nat.ne_of_lt childBefore, false_or]
  · intro holder child holds container
    rcases holds_allocate holds with ⟨rfl, inside⟩ | earlier
    · have before := childSmall inside
      simp only [Nat.ne_of_lt before, if_true, if_false]
      exact bounded child before
    · have holderSmall := earlier.isContainer.lt_size
      have childBefore := certified.child_lt_size earlier
      simp only [Nat.ne_of_lt holderSmall, Nat.ne_of_lt childBefore, if_false]
      exact certified.descends earlier (isContainer_of_isContainer_allocate container childBefore)
  · intro address container owned
    rw [stored_allocate, Multiset.add_cons, add_assoc]
    by_cases new : address = heap.cells.size
    · subst new
      have fresh : heap.cells.size ∉ heap.stored + (payload.children + kept) := by
        intro inside
        exact Nat.lt_irrefl _ (small (Multiset.mem_add.mpr (Or.inl inside)))
      rw [Multiset.count_cons_self, Multiset.count_eq_zero.mpr fresh]
    · rw [Multiset.count_cons_of_ne new]
      apply certified.single ((isContainer_allocate container).resolve_left new)
      intro unowned
      simp [new, unowned] at owned
  · intro address member container
    rcases Multiset.mem_cons.mp member with rfl | member
    · rw [if_pos (Or.inl rfl)]
    · have inside : address ∈ (payload.children : Multiset Address) + kept :=
        Multiset.mem_add.mpr (Or.inr member)
      have before := small (Multiset.mem_add.mpr (Or.inl (Multiset.mem_add.mpr (Or.inr inside))))
      have root := certified.rooted inside (isContainer_of_isContainer_allocate container before)
      have once := (certified.count_stored_of_mem_kept inside (isContainer_of_isContainer_allocate container before)).2
      rw [root, if_neg]
      rintro (new | ⟨child, held, same⟩)
      · exact Nat.ne_of_lt before new
      · cases same
        have again := Multiset.count_pos.mpr member
        have first := Multiset.count_pos.mpr (Multiset.mem_coe.mpr held)
        rw [Multiset.count_add] at once
        omega
  · intro address member container
    have before := small (Multiset.mem_add.mpr (Or.inr member))
    have unowned := certified.shared member (isContainer_of_isContainer_allocate container before)
    simp [unowned, Nat.ne_of_lt before]
  · intro address member
    rw [size_allocate]
    rw [stored_allocate] at member
    by_cases new : address = heap.cells.size
    · rw [new]
      exact Nat.lt_succ_self _
    · apply Nat.lt_succ_of_lt
      apply small
      simp only [Multiset.mem_add, Multiset.mem_cons] at member ⊢
      tauto

/-- A new object can also be lent, together with what it holds. -/
theorem allocate_lent {payload : Payload}
    (certified : Certified owner rank heap kept (payload.children + lent)) (type : StaticType) :
    Separated (heap.allocate type payload).2 kept (heap.cells.size ::ₘ lent) := by
  obtain ⟨bound, bounded⟩ := exists_rank_bound rank heap.cells.size
  have small : ∀ {address : Address}, address ∈ heap.stored + kept + (payload.children + lent) →
      address < heap.cells.size := certified.known
  have childSmall : ∀ {child : Address}, child ∈ payload.children → child < heap.cells.size := by
    intro child inside
    apply small
    simp [inside]
  refine ⟨fun address => if address = heap.cells.size then none else owner address,
    fun address => if address = heap.cells.size then bound else rank address, ?_⟩
  constructor
  · intro holder child holds container
    rcases holds_allocate holds with ⟨rfl, inside⟩ | earlier
    · have before := childSmall inside
      rw [if_neg (Nat.ne_of_lt before), if_pos rfl]
      exact certified.shared (by simp [inside]) (isContainer_of_isContainer_allocate container before)
    · have holderSmall := earlier.isContainer.lt_size
      have childBefore := certified.child_lt_size earlier
      rw [if_neg (Nat.ne_of_lt childBefore), if_neg (Nat.ne_of_lt holderSmall)]
      exact certified.inherits earlier (isContainer_of_isContainer_allocate container childBefore)
  · intro holder child holds container
    rcases holds_allocate holds with ⟨rfl, inside⟩ | earlier
    · have before := childSmall inside
      rw [if_neg (Nat.ne_of_lt before), if_pos rfl]
      exact bounded child before
    · have holderSmall := earlier.isContainer.lt_size
      have childBefore := certified.child_lt_size earlier
      rw [if_neg (Nat.ne_of_lt childBefore), if_neg (Nat.ne_of_lt holderSmall)]
      exact certified.descends earlier (isContainer_of_isContainer_allocate container childBefore)
  · intro address container owned
    have old : address ≠ heap.cells.size := by
      rintro rfl
      simp at owned
    rw [if_neg old] at owned
    have shape := (isContainer_allocate container).resolve_left old
    have once := certified.single shape owned
    have absent : address ∉ payload.children := by
      intro inside
      exact owned (certified.shared (by simp [inside]) shape)
    rw [stored_allocate]
    simpa [Multiset.count_add, List.count_eq_zero.mpr absent] using once
  · intro address member container
    have before : address < heap.cells.size := small (by simp [member])
    rw [if_neg (Nat.ne_of_lt before)]
    exact certified.rooted member (isContainer_of_isContainer_allocate container before)
  · intro address member container
    split
    · rfl
    · rename_i old
      have inside := (Multiset.mem_cons.mp member).resolve_left old
      exact certified.shared (Multiset.mem_add.mpr (Or.inr inside))
        ((isContainer_allocate container).resolve_left old)
  · intro address member
    rw [size_allocate]
    rw [stored_allocate] at member
    by_cases new : address = heap.cells.size
    · rw [new]
      exact Nat.lt_succ_self _
    · apply Nat.lt_succ_of_lt
      apply small
      simp only [Multiset.mem_add, Multiset.mem_cons] at member ⊢
      tauto

/-! ## Elements that outlive what holds them -/

/-- The element that a kept container held is kept in its stead. -/
theorem succeed {root value : Address} {arguments : Multiset Address}
    (certified : Certified owner rank before (arguments + kept) lent) (member : root ∈ arguments)
    (holds : before.Holds root value) (container : before.IsContainer value)
    (remains : Remains before after) (gone : ¬ after.IsContainer root) :
    Separated after (value ::ₘ kept) lent := by
  have rootKept : root ∈ arguments + kept := Multiset.mem_add.mpr (Or.inl member)
  have rootOwner := certified.rooted rootKept holds.isContainer
  have valueOwner : owner value = some root := by
    rw [certified.inherits holds container, rootOwner]
  have different : value ≠ root := by
    rintro rfl
    exact Nat.lt_irrefl _ (certified.descends holds container)
  have rootOnce := (certified.count_stored_of_mem_kept rootKept holds.isContainer).2
  have notRoot : root ∉ kept := by
    intro again
    have first := Multiset.count_pos.mpr member
    have second := Multiset.count_pos.mpr again
    rw [Multiset.count_add] at rootOnce
    omega
  have valueOnce := certified.single container (by simp [valueOwner])
  have valueStored : 0 < before.stored.count value :=
    Multiset.count_pos.mpr (mem_stored_iff_holds.mpr ⟨root, holds⟩)
  have valueUnkept : kept.count value = 0 := by
    simp only [Multiset.count_add] at valueOnce
    omega
  have valueFree : after.stored.count value = 0 := by
    rw [Multiset.count_eq_zero]
    intro inside
    obtain ⟨holder, held⟩ := mem_stored_iff_holds.mp inside
    have other : holder ≠ root := by
      rintro rfl
      exact gone held.isContainer
    have twice := two_le_count_stored holds (remains.holds held) other.symm
    simp only [Multiset.count_add] at valueOnce
    omega
  have fewer : kept ≤ arguments + kept := Multiset.le_add_left _ _
  have smaller := certified.remains remains fewer fun inside => inside
  refine ⟨fun address => if owner address = some root then some value else owner address,
    rank, ?_⟩
  constructor
  · intro holder child held shape
    simp only [smaller.inherits held shape]
  · exact smaller.descends
  · intro address shape owned
    by_cases same : address = value
    · subst same
      rw [Multiset.add_cons, Multiset.count_cons_self, Multiset.count_add, valueFree,
        valueUnkept]
    · rw [Multiset.add_cons, Multiset.count_cons_of_ne same]
      apply smaller.single shape
      intro unowned
      simp [unowned] at owned
  · intro address inside shape
    rcases Multiset.mem_cons.mp inside with rfl | inside
    · rw [if_pos valueOwner]
    · have kept := smaller.rooted inside shape
      rw [kept, if_neg]
      intro same
      cases same
      exact notRoot inside
  · intro address inside shape
    have unowned := smaller.shared inside shape
    simp [unowned]
  · intro address inside
    rw [Multiset.add_cons, Multiset.cons_add, Multiset.mem_cons] at inside
    rcases inside with rfl | inside
    · exact Nat.lt_of_lt_of_le (certified.child_lt_size holds) remains.size
    · exact smaller.known inside

/-- One of several kept objects, or an element of one, is kept in their stead. -/
theorem handOver {value : Address} {arguments : Multiset Address}
    (certified : Certified owner rank before (arguments + kept) lent)
    (within : before.Within value arguments) (remains : Remains before after)
    (gone : ∀ root ∈ arguments, before.IsContainer root → root ≠ value →
      ¬ after.IsContainer root) :
    Separated after (value ::ₘ kept) lent := by
  rcases within with passed | ⟨root, member, object, found, child⟩
  · refine ⟨owner, rank, certified.remains remains ?_ fun inside => inside⟩
    rw [← Multiset.singleton_add]
    exact add_le_add_left (Multiset.singleton_le.mpr passed) kept
  · have holds : before.Holds root value := ⟨object.payload, payload?_of_get? found, child⟩
    by_cases container : before.IsContainer value
    · apply certified.succeed member holds container remains
      apply gone root member holds.isContainer
      rintro rfl
      exact Nat.lt_irrefl _ (certified.descends holds container)
    · have spread : Certified owner rank before (value ::ₘ (arguments + kept)) lent :=
        certified.mention (certified.child_lt_size holds) container le_rfl
          fun inside => Multiset.mem_cons_of_mem inside
      refine ⟨owner, rank, spread.remains remains ?_ fun inside => inside⟩
      exact Multiset.cons_le_cons _ (Multiset.le_add_left _ _)

end Certified

end Heap

end ScriptEngine
