import ScriptEngine.Proofs.Ownership.Entries
import ScriptEngine.Proofs.Ownership.Guards

/-!
# Sealed keys

Where no lent handle can be bound to a name, nothing that is lent can be reached
from the key of a dict: walks do not enter keys, and what becomes a key was owned
until then.  Only lent containers are written to, so the contents of keys do not
change, and the keys of a dict are those it had, and perhaps more.
-/

namespace ScriptEngine

namespace Heap

variable {heap before after : Heap} {kept lent lent' slots : Multiset Address}
variable {root key dict container child address : Address} {payload : Payload}

/-- No container that a root leads to is lent. -/
def Avoids (heap : Heap) (lent : Multiset Address) (root : Address) : Prop :=
  ∀ container, heap.Reaches {root} container → heap.IsContainer container → container ∉ lent

/-- Keys lead to nothing that is lent. -/
def Seals (heap : Heap) (lent : Multiset Address) : Prop :=
  ∀ dict, ∀ key ∈ heap.keys dict, heap.Avoids lent key

/-! ## What avoids the lent containers -/

theorem Remains.reaches (remains : Remains before after) (reaches : after.Reaches {root} address) :
    before.Reaches {root} address := by
  induction reaches with
  | root member => exact .root member
  | slot _ holds induction => exact .slot induction (remains.holds holds)

theorem Avoids.remains (avoids : before.Avoids lent root) (remains : Remains before after)
    (less : ∀ {address}, address ∈ lent' → address ∈ lent ∨ ¬ before.IsContainer address) :
    after.Avoids lent' root := by
  intro container reaches shape member
  have shaped := remains.isContainer shape
  have lends := (less member).resolve_right fun simple => simple shaped
  exact avoids container (remains.reaches reaches) shaped lends

theorem Remains.mem_keys (remains : Remains before after) (member : key ∈ after.keys dict) :
    key ∈ before.keys dict := by
  obtain ⟨entries, found, inside⟩ := exists_entries_of_mem_keys member
  rwa [keys_of_payload? (remains.payload found)]

theorem Seals.remains (seals : before.Seals lent) (remains : Remains before after)
    (less : ∀ {address}, address ∈ lent' → address ∈ lent ∨ ¬ before.IsContainer address) :
    after.Seals lent' :=
  fun dict key member => (seals dict key (remains.mem_keys member)).remains remains less

/-- Whatever a kept root leads to belongs to it. -/
theorem Certified.owner_eq {owner : Address → Option Address} {rank : Address → Nat}
    (certified : Certified owner rank heap kept lent) (member : root ∈ kept)
    (reaches : heap.Reaches {root} address) (shape : heap.IsContainer address) :
    owner address = some root := by
  induction reaches with
  | root same =>
      rw [Multiset.mem_singleton.mp same] at shape ⊢
      exact certified.rooted member shape
  | slot _ holds induction => rw [certified.inherits holds shape, induction holds.isContainer]

theorem Separated.avoids (separated : heap.Separated kept lent) (member : root ∈ kept) :
    heap.Avoids lent root := by
  obtain ⟨owner, rank, certified⟩ := separated
  intro container reaches shape lends
  have free := certified.shared lends shape
  rw [certified.owner_eq member reaches shape] at free
  simp at free

/-- Nor does it lead to what a lent container holds. -/
theorem Separated.not_reaches_of_holds (separated : heap.Separated kept lent)
    (member : root ∈ kept) (lends : container ∈ lent) (holds : heap.Holds container address)
    (shape : heap.IsContainer address) : ¬ heap.Reaches {root} address := by
  obtain ⟨owner, rank, certified⟩ := separated
  intro reaches
  have free := certified.shared lends holds.isContainer
  rw [← certified.inherits holds shape, certified.owner_eq member reaches shape] at free
  simp at free

/-- No key leads to what is kept. -/
theorem Separated.not_reaches_of_key (separated : heap.Separated kept lent)
    (member : key ∈ heap.keys dict) (kept : address ∈ kept) (shape : heap.IsContainer address) :
    ¬ heap.Reaches {key} address := by
  have unstored := Multiset.count_eq_zero.mp (separated.alone kept shape).1
  intro reaches
  cases reaches with
  | root same =>
      rw [Multiset.mem_singleton.mp same] at unstored
      exact unstored (mem_stored_iff_holds.mpr ⟨dict, holds_of_mem_keys member⟩)
  | slot _ holds => exact unstored (mem_stored_iff_holds.mpr ⟨_, holds⟩)

/-- A slot for a key and one for a value are two slots. -/
theorem two_le_count_children {entries : List (Address × Address)}
    (member : address ∈ entries.map Prod.fst) (offered : address ∈ entries.map Prod.snd) :
    2 ≤ ((Payload.dict entries).children : Multiset Address).count address := by
  induction entries with
  | nil => simp at member
  | cons entry others induction =>
      have split : (Payload.dict (entry :: others)).children =
          entry.1 :: entry.2 :: (Payload.dict others).children := rfl
      have first : address ∈ others.map Prod.fst → 0 < (Payload.dict others).children.count address :=
        fun inside => List.count_pos_iff.mpr (mem_children_of_mem_keys inside)
      have second : address ∈ others.map Prod.snd →
          0 < (Payload.dict others).children.count address :=
        fun inside => List.count_pos_iff.mpr
          (@Payload.mem_children_of_mem_offers (.dict others) address inside)
      rw [List.map_cons, List.mem_cons] at member offered
      rw [split, Multiset.coe_count, List.count_cons, List.count_cons]
      rcases member with rfl | inside
      · rcases offered with same | inside
        · simp [← same]
        · have more := second inside
          simp
          omega
      · rcases offered with rfl | inside'
        · have more := first inside
          simp
          omega
        · have both := induction inside inside'
          rw [Multiset.coe_count] at both
          omega

/-- What is offered by a lent container is in one of its slots alone, which is not
that of a key. -/
theorem Seals.not_reaches_of_offered (seals : heap.Seals lent) (unshared : heap.Unshared slots)
    (member : key ∈ heap.keys dict) (lends : container ∈ lent)
    (found : heap.payload? container = some payload) (offered : address ∈ payload.offers)
    (shape : heap.IsContainer address) : ¬ heap.Reaches {key} address := by
  have once := (Multiset.count_le_of_le address (Multiset.le_add_right _ slots)).trans
    (unshared address shape)
  have holds : heap.Holds container address :=
    ⟨payload, found, Payload.mem_children_of_mem_offers offered⟩
  have only : ∀ {holder}, heap.Holds holder address → holder = container := by
    intro holder holds'
    by_contra different
    have twice := two_le_count_stored holds' holds different
    omega
  intro reaches
  cases reaches with
  | root same =>
      rw [Multiset.mem_singleton.mp same] at only offered once
      obtain rfl := only (holds_of_mem_keys member)
      obtain ⟨entries, found', inside⟩ := exists_entries_of_mem_keys member
      rw [found, Option.some.injEq] at found'
      subst found'
      obtain ⟨object, alive, same⟩ := payload?_eq_some_iff.mp found
      have twice := two_le_count_children inside offered
      have within := Multiset.count_le_of_le key
        (Multiset.le_add_left (object.payload.children : Multiset Address)
          (heap.erase dict).stored)
      rw [stored_erase alive] at within
      rw [← same] at twice
      have slotted := Multiset.count_le_of_le key (Multiset.le_add_right heap.stored slots)
      omega
  | @slot holder _ reaches holds' =>
      rw [only holds'] at reaches
      exact seals dict key member container reaches holds.isContainer lends

/-- One more object that no key leads to. -/
theorem Seals.lend (seals : heap.Seals lent)
    (avoided : ∀ dict, ∀ key ∈ heap.keys dict, heap.IsContainer address →
      ¬ heap.Reaches {key} address) : heap.Seals (address ::ₘ lent) := by
  intro dict key member container reaches shape lends
  rcases Multiset.mem_cons.mp lends with rfl | lends
  · exact avoided dict key member shape reaches
  · exact seals dict key member container reaches shape lends

/-! ## Values under construction -/

theorem Reaches.of_allocate {type : StaticType} (known : ∀ child ∈ heap.stored,
      child < heap.cells.size) (old : root < heap.cells.size)
    (reaches : (heap.allocate type payload).2.Reaches {root} address) :
    address < heap.cells.size ∧ heap.Reaches {root} address := by
  induction reaches with
  | root member => exact ⟨by rwa [Multiset.mem_singleton.mp member], .root member⟩
  | slot _ holds induction =>
      have holds := (holds_allocate holds).resolve_left fun new => Nat.ne_of_lt induction.1 new.1
      exact ⟨known _ (mem_stored_iff_holds.mpr ⟨_, holds⟩), .slot induction.2 holds⟩

/-- What becomes a key was kept until then. -/
theorem Seals.crafting (kept lent : Multiset Address) :
    Crafting fun heap pending owned =>
      heap.Separated (pending + (owned + kept)) lent ∧ heap.Seals lent where
  enter {heap slots handles address} both :=
    ⟨(Separated.crafting kept lent).enter both.1,
      both.2.remains (Remains.enterSlot heap address) Or.inl⟩
  leave {heap slots handles address} both :=
    ⟨(Separated.crafting kept lent).leave both.1,
      both.2.remains (Remains.leaveSlot heap address) Or.inl⟩
  release {heap slots handles address} both :=
    ⟨(Separated.crafting kept lent).release both.1,
      both.2.remains (Remains.release heap address) Or.inl⟩
  allocate {heap slots handles} payload type both := by
    obtain ⟨separated, seals⟩ := both
    have made := (Separated.crafting kept lent).allocate payload type separated
    refine ⟨made, ?_⟩
    obtain ⟨owner, rank, certified⟩ := separated
    have known : ∀ child ∈ heap.stored, child < heap.cells.size := by
      intro child member
      apply certified.known
      simp [member]
    intro dict key member container reaches shape lends
    have holds := holds_of_mem_keys member
    rcases holds_allocate holds with ⟨rfl, _⟩ | old
    · have avoids : (heap.allocate type payload).2.Avoids lent heap.cells.size :=
        made.avoids (by simp)
      exact avoids container (Reaches.child holds reaches) shape lends
    · have stored := known key (mem_stored_iff_holds.mpr ⟨dict, old⟩)
      obtain ⟨small, reached⟩ := reaches.of_allocate known stored
      have same : (heap.allocate type payload).2.payload? dict = heap.payload? dict := by
        rw [payload?_allocate, if_neg (Nat.ne_of_lt old.isContainer.lt_size)]
      rw [keys_congr same] at member
      have shaped := isContainer_of_isContainer_allocate shape small
      exact seals dict key member container reached shaped lends

end Heap

end ScriptEngine
