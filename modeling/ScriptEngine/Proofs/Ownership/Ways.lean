import ScriptEngine.Proofs.Ownership.Sprouts

/-!
# Ways through values

Indices lead from a container to its elements and values, never to a key.  Where each
container on such ways is in one slot only and none holds itself, no key of a dict there
leads back to them: nothing that is done to a container on the way changes a key.
-/

namespace ScriptEngine

theorem StaticType.children_initial (type : StaticType) : type.initial.children = [] := by
  unfold initial
  split
  · rfl
  · split
    · rfl
    · rfl

theorem Payload.count_children_dict (entries : List (Address × Address)) (address : Address) :
    (Payload.dict entries).children.count address =
      (entries.map Prod.fst).count address + (entries.map Prod.snd).count address := by
  induction entries with
  | nil => rfl
  | cons entry entries induction =>
      simp only [children] at induction ⊢
      rw [List.flatMap_cons, List.count_append, induction, List.map_cons, List.map_cons,
        List.count_cons, List.count_cons, List.count_cons, List.count_cons, List.count_nil]
      omega

namespace Heap

variable {heap before after : Heap} {root dict key address child : Address}
  {entries : List (Address × Address)} {slots handles : Multiset Address}

/-- The objects to which indices can lead from a root. -/
inductive Way (heap : Heap) (root : Address) : Address → Prop where
  | here : Way heap root root
  | offer {holder value : Address} {payload : Payload} :
      Way heap root holder → heap.payload? holder = some payload → value ∈ payload.offers →
      Way heap root value

/-- Containers on the ways from a root. -/
def Stop (heap : Heap) (root address : Address) : Prop :=
  heap.Way root address ∧ heap.IsContainer address

/-- No container on a way is in two slots or holds itself, and what keys hold comes to
an end. -/
structure Branches (heap : Heap) (root : Address) : Prop where
  once : ∀ {address}, heap.Stop root address → heap.stored.count address ≤ 1
  acyclic : ∀ {address}, heap.Way root address → ¬ Relation.TransGen heap.Holds address address
  ends : ∀ {dict key}, heap.Way root dict → key ∈ heap.keys dict →
    heap.EndsWithin heap.cells.size key

/-- An object that leads to no container on the ways from a root. -/
def Aloof (heap : Heap) (root address : Address) : Prop :=
  ∀ stop, heap.Stop root stop → ¬ heap.Reaches {address} stop

theorem Way.reaches (way : heap.Way root address) : heap.Reaches {root} address := by
  induction way with
  | here => exact .root (Multiset.mem_singleton_self root)
  | offer _ found offered induction =>
      exact .slot induction ⟨_, found, Payload.mem_children_of_mem_offers offered⟩

theorem Reaches.path (reaches : heap.Reaches {root} address) :
    Relation.ReflTransGen heap.Holds root address := by
  induction reaches with
  | root member =>
      rw [Multiset.mem_singleton.mp member]
  | slot _ holds induction => exact induction.tail holds

/-- A dict that has an object as a key and as a value holds it twice. -/
theorem two_le_count_of_key (member : key ∈ heap.keys dict) {payload : Payload}
    (found : heap.payload? dict = some payload) (offered : key ∈ payload.offers) :
    2 ≤ heap.stored.count key := by
  obtain ⟨entries, present, inside⟩ := exists_entries_of_mem_keys member
  cases present.symm.trans found
  obtain ⟨object, alive, same⟩ := payload?_eq_some_iff.mp present
  have split := stored_erase alive
  have twice := Payload.count_children_dict entries key
  have first := List.count_pos_iff.mpr inside
  have second := List.count_pos_iff.mpr (show key ∈ entries.map Prod.snd from offered)
  rw [← split, Multiset.count_add, same, Multiset.coe_count]
  omega

namespace Branches

variable (branches : heap.Branches root)
include branches

/-- No key leads to a container on the way. -/
theorem aloof_of_key (way : heap.Way root dict) (member : key ∈ heap.keys dict) :
    heap.Aloof root key := by
  rintro stop ⟨onWay, container⟩
  have held := holds_of_mem_keys member
  induction onWay with
  | here =>
      intro reaches
      exact branches.acyclic .here ((Relation.TransGen.tail' way.reaches.path held).trans_left
        reaches.path)
  | @offer holder value payload onWay found offered induction =>
      have holds : heap.Holds holder value :=
        ⟨payload, found, Payload.mem_children_of_mem_offers offered⟩
      have once := branches.once ⟨.offer onWay found offered, container⟩
      have only : ∀ {other}, heap.Holds other value → other = holder := by
        intro other holds'
        by_contra different
        have twice := two_le_count_stored holds' holds different
        omega
      intro reaches
      cases reaches with
      | root same =>
          cases Multiset.mem_singleton.mp same
          cases only held
          have twice := two_le_count_of_key member found offered
          omega
      | slot reaches holds' =>
          cases only holds'
          exact induction holds.isContainer reaches

end Branches

/-! ## What remains of ways -/

namespace Remains

variable (remains : Remains before after)
include remains

theorem way (way : after.Way root address) : before.Way root address := by
  induction way with
  | here => exact .here
  | offer _ found offered induction => exact .offer induction (remains.payload found) offered

theorem stop (stop : after.Stop root address) : before.Stop root address :=
  ⟨remains.way stop.1, remains.isContainer stop.2⟩

theorem endsWithin {steps : Nat} (ends : before.EndsWithin steps address) :
    after.EndsWithin steps address := by
  induction steps generalizing address with
  | zero => exact fun child holds => ends child (remains.holds holds)
  | succ steps induction => exact fun child holds => induction (ends child (remains.holds holds))

theorem branches (branches : before.Branches root) : after.Branches root := by
  constructor
  · intro address stop
    exact (Multiset.count_le_of_le address remains.stored).trans (branches.once (remains.stop stop))
  · intro address way cycle
    have fewer : after.Holds ≤ before.Holds := fun _ _ holds => remains.holds holds
    exact branches.acyclic (remains.way way) (Relation.TransGen.mono fewer _ _ cycle)
  · intro dict key way member
    obtain ⟨entries, found, inside⟩ := exists_entries_of_mem_keys member
    rw [← keys_of_payload? (remains.payload found)] at inside
    rw [remains.cells]
    exact remains.endsWithin (branches.ends (remains.way way) inside)

end Remains

/-! ## Ways to an entry that is created -/

theorem stored_enterSlot (heap : Heap) (address : Address) :
    (heap.enterSlot address).stored = heap.stored :=
  stored_modify fun _ => rfl

section

variable (found : heap.payload? dict = some (.dict entries))
include found

/-- What there is besides the dict that has got the entry. -/
theorem payload?_createEntry_of_apart (different : dict ≠ address) :
    (heap.createEntry dict key entries).payload? address =
      if address = heap.cells.size then some ((heap.type dict).parameter 1).initial
      else heap.payload? address := by
  rw [(createEntry_replaces key found).2.spared different, newDefault_eq, payload?_allocate]

theorem holds_createEntry {holder : Address}
    (holds : (heap.createEntry dict key entries).Holds holder child) :
    heap.Holds holder child ∨ holder = dict ∧ (child = key ∨ child = heap.cells.size) := by
  obtain ⟨payload, present, member⟩ := holds
  by_cases same : dict = holder
  · subst same
    cases (payload?_createEntry key found).symm.trans present
    rw [Payload.children, List.flatMap_append, List.mem_append] at member
    rcases member with old | new
    · exact Or.inl ⟨_, found, old⟩
    · exact Or.inr ⟨rfl, by simpa using new⟩
  · rw [payload?_createEntry_of_apart found same] at present
    split at present
    · cases present
      rw [StaticType.children_initial] at member
      simp at member
    · exact Or.inl ⟨payload, present, member⟩

theorem mem_keys_createEntry {holder other : Address}
    (member : other ∈ (heap.createEntry dict key entries).keys holder) :
    other ∈ heap.keys holder ∨ holder = dict ∧ other = key := by
  by_cases same : dict = holder
  · subst same
    rw [keys_of_payload? (payload?_createEntry key found), List.map_append, List.mem_append] at member
    rw [keys_of_payload? found]
    exact member.imp id fun new => ⟨rfl, by simpa using new⟩
  · have present := @payload?_createEntry_of_apart heap dict key holder entries found same
    obtain ⟨pairs, later, inside⟩ := exists_entries_of_mem_keys member
    rw [present] at later
    split at later
    · cases StaticType.initial_eq_dict (Option.some.inj later)
      simp at inside
    · rw [keys_of_payload? later]
      exact Or.inl inside

theorem stored_createEntry :
    (heap.createEntry dict key entries).stored = key ::ₘ heap.cells.size ::ₘ heap.stored := by
  obtain ⟨still, _⟩ := createEntry_replaces key found
  obtain ⟨object, alive, same⟩ := payload?_eq_some_iff.mp still
  rw [newDefault_eq] at alive
  have entered : (((heap.allocate ((heap.type dict).parameter 1).mutable
      ((heap.type dict).parameter 1).initial).2.enterSlot key).enterSlot heap.cells.size).payload? dict =
        some object.payload := by
    rw [payload?_enterSlot, payload?_enterSlot, payload?_of_get? alive]
  obtain ⟨object', alive', same'⟩ := payload?_eq_some_iff.mp entered
  have exchanged := stored_setPayload alive' (.dict (entries ++ [(key, heap.cells.size)]))
  rw [stored_enterSlot, stored_enterSlot, stored_allocate, StaticType.children_initial, same', same,
    children_append, Multiset.coe_nil, add_zero, Multiset.add_cons, Multiset.add_cons,
    ← Multiset.cons_add, ← Multiset.cons_add] at exchanged
  rw [Multiset.cons_swap]
  exact add_right_cancel exchanged

theorem Balanced.createEntry (balanced : heap.Balanced slots (key ::ₘ handles)) :
    (heap.createEntry dict key entries).Balanced slots handles := by
  obtain ⟨still, _⟩ := createEntry_replaces key found
  obtain ⟨object, alive, same⟩ := payload?_eq_some_iff.mp still
  rw [newDefault_eq] at alive
  have made : (heap.allocate ((heap.type dict).parameter 1).mutable
      ((heap.type dict).parameter 1).initial).2.Balanced slots
        (heap.cells.size ::ₘ key ::ₘ handles) := by
    apply Balanced.allocate
    rwa [StaticType.children_initial, Multiset.coe_nil, zero_add]
  rw [Multiset.cons_swap] at made
  have entered := made.enterSlot.enterSlot
  have present : (((heap.allocate ((heap.type dict).parameter 1).mutable
      ((heap.type dict).parameter 1).initial).2.enterSlot key).enterSlot heap.cells.size).payload? dict =
        some object.payload := by
    rw [payload?_enterSlot, payload?_enterSlot, payload?_of_get? alive]
  obtain ⟨object', alive', same'⟩ := payload?_eq_some_iff.mp present
  apply entered.setPayload alive'
  rw [same', same, children_append, Multiset.cons_add, Multiset.cons_add, Multiset.add_cons,
    Multiset.add_cons]

theorem way_createEntry (way : (heap.createEntry dict key entries).Way root address) :
    heap.Way root address ∨ address = heap.cells.size := by
  induction way with
  | here => exact Or.inl .here
  | @offer holder value payload _ present offered induction =>
      by_cases same : dict = holder
      · subst same
        cases (payload?_createEntry key found).symm.trans present
        rw [Payload.offers, List.map_append, List.mem_append] at offered
        rcases offered with old | new
        · refine Or.inl (.offer (induction.resolve_right ?_) found old)
          exact Nat.ne_of_lt (lt_size_of_payload? found)
        · exact Or.inr (by simpa using new)
      · rw [payload?_createEntry_of_apart found same] at present
        split at present
        · cases present
          have child := Payload.mem_children_of_mem_offers offered
          rw [StaticType.children_initial] at child
          simp at child
        · rename_i old
          exact Or.inl (.offer (induction.resolve_right old) present offered)

/-- What does not lead to the dict is as it was. -/
theorem alike_createEntry (balanced : heap.Balanced slots handles)
    (alive : heap.payload? address ≠ none) (avoids : ¬ heap.Reaches {address} dict) :
    Alike heap (heap.createEntry dict key entries) address := by
  intro other reaches
  have living : heap.payload? other ≠ none := by
    cases reaches with
    | root member =>
        rw [Multiset.mem_singleton.mp member]
        exact alive
    | slot _ holds => exact balanced.closed holds
  obtain ⟨payload, present⟩ := Option.ne_none_iff_exists'.mp living
  have different : dict ≠ other := by
    rintro rfl
    exact avoids reaches
  exact ⟨(payload?_createEntry_of_ne key found different present).trans present.symm,
    type_createEntry key found present⟩

theorem path_createEntry {first last : Address}
    (path : Relation.TransGen (heap.createEntry dict key entries).Holds first last) :
    Relation.TransGen heap.Holds first last ∨ heap.Reaches {key} last ∨ last = heap.cells.size := by
  have entered : heap.Reaches {key} key := .root (Multiset.mem_singleton_self key)
  induction path with
  | single holds =>
      rcases holds_createEntry found holds with old | ⟨_, rfl | rfl⟩
      · exact Or.inl (.single old)
      · exact Or.inr (Or.inl entered)
      · exact Or.inr (Or.inr rfl)
  | tail _ holds induction =>
      rcases holds_createEntry found holds with old | ⟨_, rfl | rfl⟩
      · rcases induction with path | reaches | rfl
        · exact Or.inl (path.tail old)
        · exact Or.inr (Or.inl (.slot reaches old))
        · exact absurd old.isContainer.lt_size (Nat.lt_irrefl _)
      · exact Or.inr (Or.inl entered)
      · exact Or.inr (Or.inr rfl)

theorem stop_createEntry (stop : (heap.createEntry dict key entries).Stop root address) :
    heap.Stop root address ∨ address = heap.cells.size := by
  obtain ⟨way, payload, present, container⟩ := stop
  by_cases fresh : address = heap.cells.size
  · exact Or.inr fresh
  · refine Or.inl ⟨(way_createEntry found way).resolve_right fresh, ?_⟩
    by_cases same : dict = address
    · subst same
      exact ⟨_, found, trivial⟩
    · rw [payload?_createEntry_of_apart found same, if_neg fresh] at present
      exact ⟨payload, present, container⟩

section

variable (balanced : heap.Balanced slots (key ::ₘ handles))
include balanced

/-- The key of the new entry must not lead back to the ways. -/
theorem Branches.createEntry (branches : heap.Branches root) (way : heap.Way root dict)
    (aloof : heap.Aloof root key) (ends : heap.EndsWithin heap.cells.size key) :
    (heap.createEntry dict key entries).Branches root := by
  have stop : heap.Stop root dict := ⟨way, _, found, trivial⟩
  have small : key < heap.cells.size := balanced.lt_size (by simp)
  have size := (@SurvivesBut.createEntry heap dict key entries found).size
  constructor
  · intro address inside
    rw [stored_createEntry found]
    rcases stop_createEntry found inside with old | rfl
    · have other : address ≠ key := by
        rintro rfl
        exact aloof _ old (.root (Multiset.mem_singleton_self _))
      have older : address ≠ heap.cells.size := Nat.ne_of_lt old.2.lt_size
      rw [Multiset.count_cons_of_ne other, Multiset.count_cons_of_ne older]
      exact branches.once old
    · have absent : heap.stored.count heap.cells.size = 0 := by
        apply Multiset.count_eq_zero.mpr
        intro member
        exact Nat.lt_irrefl _ (balanced.lt_size (by simp [member]))
      rw [Multiset.count_cons_of_ne (Nat.ne_of_gt small), Multiset.count_cons_self, absent]
  · intro address inside cycle
    obtain ⟨child, first, _⟩ := Relation.TransGen.head'_iff.mp cycle
    have container : heap.IsContainer address := by
      rcases holds_createEntry found first with old | ⟨rfl, _⟩
      · exact old.isContainer
      · exact stop.2
    have older : address ≠ heap.cells.size := Nat.ne_of_lt container.lt_size
    have onWay := (way_createEntry found inside).resolve_right older
    rcases path_createEntry found cycle with path | reaches | fresh
    · exact branches.acyclic onWay path
    · exact aloof address ⟨onWay, container⟩ reaches
    · exact older fresh
  · intro holder other inside member
    have kept : ∀ {child}, heap.payload? child ≠ none → heap.Aloof root child →
        heap.EndsWithin heap.cells.size child →
        (heap.createEntry dict key entries).EndsWithin
          (heap.createEntry dict key entries).cells.size child := by
      intro child alive away ends
      exact ((alike_createEntry found balanced alive (away dict stop)).endsWithin ends).mono size
    rcases mem_keys_createEntry found member with old | ⟨rfl, rfl⟩
    · have held := holds_of_mem_keys old
      have older : holder ≠ heap.cells.size := Nat.ne_of_lt held.isContainer.lt_size
      have onWay := (way_createEntry found inside).resolve_right older
      exact kept (balanced.closed held) (branches.aloof_of_key onWay old) (branches.ends onWay old)
    · obtain ⟨object, alive⟩ := balanced.alive (by simp : other ∈ _)
      exact kept (by simp [payload?_of_get? alive]) aloof ends

end

end

end Heap

end ScriptEngine
