import ScriptEngine.Proofs.Control.Quiet
import ScriptEngine.Proofs.Ownership.Sprouts

/-!
# What is left of a failure

Objects live as long as something refers to them.  Where bindings, handles and what
containers hold are the same, the same objects are alive, with the same counts;
only literals can be new.  Where a dict has got an entry, all that is new besides is
what belongs to this entry.
-/

namespace ScriptEngine

namespace Ledger

variable {before after : Ledger}

/-- Outside the heap, what is referred to in one ledger is referred to in another. -/
def Covers (before after : Ledger) : Prop :=
  ∀ {address}, address ∈ before.scopes.bound + before.handles →
    address ∈ after.scopes.bound + after.handles

/-- What is alive stays alive if containers that do keep what they hold. -/
theorem Orderly.alive_of_alive (orderly : before.Orderly) (balanced : after.Balanced)
    (covers : before.Covers after)
    (holds : ∀ {holder child}, (∃ object, after.heap.get? holder = some object) →
      before.heap.Holds holder child → after.heap.Holds holder child)
    {address : Address} {object : Object} (alive : before.heap.get? address = some object) :
    ∃ object, after.heap.get? address = some object := by
  have reaches := orderly.balanced.heap.reaches_of_alive orderly.separated.heap alive
  clear alive
  induction reaches with
  | root member =>
      apply balanced.heap.alive
      rw [add_assoc]
      exact Multiset.mem_add.mpr (Or.inr (covers member))
  | @slot holder child _ held induction =>
      apply balanced.heap.alive
      have stored := Heap.mem_stored_iff_holds.mpr ⟨holder, holds induction held⟩
      simp [stored]

end Ledger

namespace Heap

variable {before after : Heap}

theorem stored_eq (heap : Heap) :
    heap.stored = ((List.range heap.cells.size).flatMap fun address =>
      cellChildren (heap.get? address) : List Address) := by
  rw [stored, toList_cells, List.flatMap_map]

/-- New objects that hold nothing are not noticed in the slots. -/
theorem stored_eq_of_children (grown : before.cells.size ≤ after.cells.size)
    (old : ∀ {address}, address < before.cells.size →
      cellChildren (after.get? address) = cellChildren (before.get? address))
    (new : ∀ {address}, before.cells.size ≤ address → cellChildren (after.get? address) = []) :
    after.stored = before.stored := by
  obtain ⟨count, size⟩ := Nat.exists_eq_add_of_le grown
  have nothing : (List.range count).flatMap (fun position =>
      cellChildren (after.get? (before.cells.size + position))) = [] :=
    List.flatMap_eq_nil_iff.mpr fun position _ => new (Nat.le_add_right _ position)
  rw [stored_eq, stored_eq, size, List.range_add, List.flatMap_append, List.flatMap_map, nothing,
    List.append_nil]
  congr 1
  apply List.flatMap_congr
  intro address member
  exact old (List.mem_range.mp member)

end Heap

/-- Handles that are at hand besides others. -/
structure Hand.PartOf (hand more : Hand) : Prop where
  owned : hand.owned ≤ more.owned
  shared : hand.shared ≤ more.shared

namespace Hand.PartOf

variable {hand more : Hand}

theorem refl (hand : Hand) : hand.PartOf hand :=
  ⟨le_rfl, le_rfl⟩

theorem own (part : hand.PartOf more) (address : Address) : hand.PartOf (more.own address) :=
  ⟨part.owned.trans (Multiset.le_cons_self _ address), part.shared⟩

theorem share (part : hand.PartOf more) (address : Address) : hand.PartOf (more.share address) :=
  ⟨part.owned, part.shared.trans (Multiset.le_cons_self _ address)⟩

theorem shareAll (part : hand.PartOf more) (addresses : List Address) :
    hand.PartOf (more.shareAll addresses) :=
  ⟨part.owned, part.shared.trans (Multiset.le_add_left _ _)⟩

end Hand.PartOf

namespace State

variable {before after : State} {hand hand' : Hand}

theorem mem_literals_iff {state : State} {address : Address} :
    address ∈ (state.ledger hand).literals ↔ ∃ id, state.literal? id = some address := by
  constructor
  · intro member
    rw [ledger, Multiset.mem_coe, List.reduceOption_mem_iff] at member
    obtain ⟨index, found⟩ := Array.mem_iff_getElem?.mp (Array.mem_toList_iff.mp member)
    exact ⟨⟨index⟩, by rw [literal?, found]; rfl⟩
  · rintro ⟨id, found⟩
    exact mem_literals_of_literal? found hand

/-- The object of a literal that has been cached since. -/
def CachedSince (before after : State) (address : Address) : Prop :=
  ∃ id, before.literal? id = none ∧ after.literal? id = some address

namespace Aside

variable (aside : before.Aside after)
include aside

theorem results : (after.ledger hand').results = (before.ledger hand).results := by
  rw [ledger, ledger, aside.calls]

theorem covers (part : hand.PartOf hand') :
    (before.ledger hand).Covers (after.ledger hand') := by
  intro address member
  have literal : address ∈ (before.ledger hand).literals → address ∈ (after.ledger hand').literals := by
    rw [mem_literals_iff, mem_literals_iff]
    rintro ⟨id, found⟩
    exact ⟨id, aside.literals found⟩
  have results : (after.ledger hand').results = (before.ledger hand).results := aside.results
  simp only [Ledger.handles, Multiset.mem_add, results] at member ⊢
  rcases member with bound | own | share | kept | cached
  · exact Or.inl (by rwa [ledger, aside.scopes])
  · exact Or.inr (Or.inl (Multiset.mem_of_le part.owned own))
  · exact Or.inr (Or.inr (Or.inl (Multiset.mem_of_le part.shared share)))
  · exact Or.inr (Or.inr (Or.inr (Or.inl kept)))
  · exact Or.inr (Or.inr (Or.inr (Or.inr (literal cached))))

/-- What refers to a living object is the same, or a literal that is new, or it is one
of some further objects. -/
theorem origin (extra : Multiset Address) (balanced : (before.ledger hand).Balanced)
    (orderly : (after.ledger hand).Orderly)
    (holds : ∀ {holder child}, (∃ object, before.heap.get? holder = some object) →
      after.heap.Holds holder child → before.heap.Holds holder child ∨ child ∈ extra)
    {address : Address} {object : Object} (alive : after.heap.get? address = some object) :
    (∃ object, before.heap.get? address = some object) ∨ before.CachedSince after address ∨
      after.heap.Reaches extra address := by
  have reaches := orderly.balanced.heap.reaches_of_alive orderly.separated.heap alive
  clear alive
  have referred : ∀ {address}, address ∈ before.heap.stored + before.scopes.bound +
      (before.ledger hand).handles → ∃ object, before.heap.get? address = some object :=
    balanced.heap.alive
  induction reaches with
  | @root address member =>
      have results : (after.ledger hand).results = (before.ledger hand).results := aside.results
      have bound : (after.ledger hand).scopes = before.scopes := aside.scopes
      simp only [Ledger.handles, Multiset.mem_add, results, bound] at member referred
      rcases member with bound | own | share | kept | cached
      · exact Or.inl (referred (Or.inl (Or.inr bound)))
      · exact Or.inl (referred (Or.inr (Or.inl own)))
      · exact Or.inl (referred (Or.inr (Or.inr (Or.inl share))))
      · exact Or.inl (referred (Or.inr (Or.inr (Or.inr (Or.inl kept)))))
      · obtain ⟨id, found⟩ := mem_literals_iff.mp cached
        rcases aside.fresh found with old | ⟨missing, _⟩
        · exact Or.inl (referred (Or.inr (Or.inr (Or.inr (Or.inr (mem_literals_iff.mpr ⟨id, old⟩))))))
        · exact Or.inr (Or.inl ⟨id, missing, found⟩)
  | @slot holder child _ held induction =>
      rcases induction with old | ⟨id, _, found⟩ | reached
      · rcases holds old held with before | further
        · have stored := Heap.mem_stored_iff_holds.mpr ⟨holder, before⟩
          exact Or.inl (referred (by simp [stored]))
        · exact Or.inr (Or.inr (.root further))
      · have plain := orderly.separated.literals holder (mem_literals_iff.mpr ⟨id, found⟩)
        exact absurd held.isContainer plain.2
      · exact Or.inr (Or.inr (.slot reached held))

end Aside

/-! ## Nothing but literals -/

/-- Every object is as it was, with its counts, and the others are objects of literals
that are cached for the first time. -/
structure Unchanged (before after : State) : Prop extends Aside before after where
  object : ∀ {address object}, before.heap.get? address = some object →
    after.heap.get? address = some object
  others : ∀ {address object}, after.heap.get? address = some object →
    before.heap.get? address = some object ∨ before.CachedSince after address

namespace Undisturbed

variable (undisturbed : before.Undisturbed after)
include undisturbed

theorem holds_iff {holder child : Address} (old : holder < before.heap.cells.size)
    (alive : ∃ object, after.heap.get? holder = some object) :
    after.heap.Holds holder child ↔ before.heap.Holds holder child := by
  obtain ⟨later, alive⟩ := alive
  have same := undisturbed.heap.survives.payload?_eq old (by simp [Heap.payload?_of_get? alive])
  rw [Heap.Holds, Heap.Holds, same]

theorem alive_of_alive (orderly : (before.ledger hand).Orderly)
    (balanced : (after.ledger hand').Balanced) (part : hand.PartOf hand') {address : Address}
    {object : Object} (alive : before.heap.get? address = some object) :
    ∃ object, after.heap.get? address = some object := by
  apply orderly.alive_of_alive balanced (undisturbed.covers part) _ alive
  intro holder child living held
  obtain ⟨payload, found, _⟩ := id held
  exact (undisturbed.holds_iff (Heap.lt_size_of_payload? found) living).mpr held

theorem origin (balanced : (before.ledger hand).Balanced) (orderly : (after.ledger hand).Orderly)
    {address : Address} {object : Object} (alive : after.heap.get? address = some object) :
    (∃ object, before.heap.get? address = some object) ∨ before.CachedSince after address := by
  have origin := undisturbed.toAside.origin 0 balanced orderly ?_ alive
  · rcases origin with old | cached | reached
    · exact Or.inl old
    · exact Or.inr cached
    · obtain ⟨root, member⟩ := reached.exists_root
      simp at member
  · rintro holder child ⟨earlier, past⟩ held
    obtain ⟨payload, found, _⟩ := id held
    obtain ⟨later, living, _⟩ := Heap.payload?_eq_some_iff.mp found
    exact Or.inl ((undisturbed.holds_iff (Heap.lt_size_of_get?_eq_some past) ⟨later, living⟩).mp held)

/-- The slots of containers hold the same objects, equally often. -/
theorem stored (orderly : (before.ledger hand).Orderly) (orderly' : (after.ledger hand).Orderly) :
    after.heap.stored = before.heap.stored := by
  apply Heap.stored_eq_of_children undisturbed.size
  · intro address old
    cases present : after.heap.get? address with
    | some later =>
        obtain ⟨earlier, past, alike⟩ := undisturbed.heap.object old present
        rw [past, alike]
        rfl
    | none =>
        cases past : before.heap.get? address with
        | none => rfl
        | some earlier =>
            obtain ⟨later, alive⟩ := undisturbed.alive_of_alive orderly orderly'.balanced (.refl hand) past
            simp [present] at alive
  · intro address new
    cases present : after.heap.get? address with
    | none => rfl
    | some later =>
        rcases undisturbed.origin orderly.balanced orderly' present with ⟨earlier, past⟩ |
          ⟨id, _, found⟩
        · exact absurd new (Nat.not_le_of_lt (Heap.lt_size_of_get?_eq_some past))
        · have plain := orderly'.separated.literals address (mem_literals_iff.mpr ⟨id, found⟩)
          have empty : later.payload.children = [] := by
            apply List.eq_nil_iff_forall_not_mem.mpr
            intro child member
            have held : after.heap.Holds address child :=
              ⟨_, Heap.payload?_of_get? present, member⟩
            exact plain.2 held.isContainer
          exact empty

/-- With the same handles at hand, nothing has changed. -/
theorem unchanged (orderly : (before.ledger hand).Orderly)
    (orderly' : (after.ledger hand).Orderly) : before.Unchanged after := by
  have stored := undisturbed.stored orderly orderly'
  have bound : (after.ledger hand).scopes = (before.ledger hand).scopes := undisturbed.scopes
  have results : (after.ledger hand).results = (before.ledger hand).results :=
    undisturbed.toAside.results
  have literals : ∀ {address}, address < before.heap.cells.size →
      (after.ledger hand).literals.count address = (before.ledger hand).literals.count address := by
    intro address old
    rw [Multiset.count_eq_of_nodup orderly'.tidy.literals,
      Multiset.count_eq_of_nodup orderly.tidy.literals]
    apply if_congr _ rfl rfl
    rw [mem_literals_iff, mem_literals_iff]
    constructor
    · rintro ⟨id, found⟩
      rcases undisturbed.fresh found with cached | ⟨_, young⟩
      · exact ⟨id, cached⟩
      · omega
    · rintro ⟨id, found⟩
      exact ⟨id, undisturbed.literals found⟩
  have object : ∀ {address object}, before.heap.get? address = some object →
      after.heap.get? address = some object := by
    intro address object past
    have old := Heap.lt_size_of_get?_eq_some past
    obtain ⟨later, present⟩ := undisturbed.alive_of_alive orderly orderly'.balanced (.refl hand) past
    obtain ⟨earlier, past', alike⟩ := undisturbed.heap.object old present
    cases past.symm.trans past'
    have slots : later.slots = object.slots := by
      rw [orderly'.balanced.heap.slotted present, orderly.balanced.heap.slotted past, bound]
      exact congrArg (fun stored => Multiset.count address (stored + _)) stored
    have handles : later.handles = object.handles := by
      rw [orderly'.balanced.heap.handled present, orderly.balanced.heap.handled past, bound]
      simp only [Ledger.handles, Multiset.count_add, results, literals old]
      exact congrArg (fun stored => Multiset.count address stored + _ + _) stored
    rw [present, alike, slots, handles]
  refine ⟨undisturbed.toAside, object, ?_⟩
  intro address later present
  rcases undisturbed.origin orderly.balanced orderly' present with ⟨earlier, past⟩ | cached
  · cases (object past).symm.trans present
    exact Or.inl past
  · exact Or.inr cached

end Undisturbed

/-! ## A chain of entries -/

/-- A dict that was there has got an entry for a key that it did not have, at its end.
The value of the entry is the default for such values, except that it may have got an
entry in turn.  All other objects that were there are the same, and what is new
belongs to the entry or is the object of a literal that is cached for the first time. -/
structure Sprouted (before after : State) (dict : Address) (tree : Tree) (trees : List Tree) : Prop
    extends Aside before after where
  entry : ∃ entries key value,
    before.heap.payload? dict = some (.dict entries) ∧
    after.heap.payload? dict = some (.dict (entries ++ [(key, value)])) ∧
    after.heap.findEntry? entries key = none ∧
    after.heap.tree key = tree ∧
    before.heap.cells.size ≤ value ∧
    after.heap.Sprout ((before.heap.type dict).parameter 1) value trees ∧
    ∀ {address object}, after.heap.get? address = some object →
      (∃ object, before.heap.get? address = some object) ∨ before.CachedSince after address ∨
        after.heap.Reaches {key, value} address
  payload : ∀ {address payload}, dict ≠ address → before.heap.payload? address = some payload →
    after.heap.payload? address = some payload
  type : ∀ {address payload}, before.heap.payload? address = some payload →
    after.heap.type address = before.heap.type address

end State

end ScriptEngine
