import ScriptEngine.Proofs.Ownership.Copies

/-!
# Dicts under construction

A dict takes in pairs one by one.  A key that equals an earlier one is given up,
and any other one is added at the end, so that no two keys are equal when the dict
is complete.  With copies that is every way in which runs make dicts.
-/

namespace ScriptEngine

namespace Heap

/-- No two of the keys are equal. -/
def Distinct (heap : Heap) (entries : List (Address × Address)) : Prop :=
  (entries.map Prod.fst).Pairwise fun first second => heap.equals first second = false

variable {heap before after : Heap} {slots handles slots' handles' : Multiset Address}
variable {entries : List (Address × Address)} {key value : Address}

/-- Nothing is new where objects only go. -/
theorem Remains.keyed (remains : Remains before after) (sound : before.Sound slots handles)
    (sound' : after.Sound slots' handles') (keyed : before.Keyed) : after.Keyed := by
  apply remains.survives.keyed sound sound' keyed
  intro dict new
  have absent : after.payload? dict = none := by
    by_contra present
    obtain ⟨payload, found⟩ := Option.ne_none_iff_exists'.mp present
    exact absurd (lt_size_of_payload? (remains.payload found)) (Nat.not_lt_of_le new)
  simp [keys, Heap.entries, absent]

/-- What is in slots on both sides compares as before. -/
theorem Survives.equals_slotted (survives : Survives before after)
    (sound : before.Sound slots handles) (sound' : after.Sound slots' handles')
    {left right : Address} (old : left ∈ slots + handles ∧ right ∈ slots + handles)
    (still : left ∈ slots' ∧ right ∈ slots') :
    after.equals left right = before.equals left right := by
  have alike : ∀ {address}, address ∈ slots + handles → address ∈ slots' →
      Alike before after address := by
    intro address member member'
    obtain ⟨object, alive⟩ := sound'.balanced.alive
      (Multiset.mem_add.mpr (Or.inl (Multiset.mem_add.mpr (Or.inr member'))))
    apply survives.alike sound.balanced sound'.balanced
    · apply sound.balanced.lt_size
      rw [add_assoc]
      exact Multiset.mem_add.mpr (Or.inr member)
    · simp [payload?_of_get? alive]
  exact (alike old.1 still.1).equals (alike old.2 still.2)

@[simp] theorem map_fst_setEntry (entries : List (Address × Address)) (position : Nat)
    (value : Address) : (setEntry entries position value).map Prod.fst = entries.map Prod.fst := by
  apply List.ext_getElem?
  intro index
  simp only [setEntry, List.getElem?_map, List.getElem?_modify]
  cases entries[index]? with
  | none => rfl
  | some entry =>
      by_cases same : position = index
      · simp [same]
      · simp [same]

theorem Remains.insertPair (heap : Heap) (entries : List (Address × Address))
    (key value : Address) : Remains heap (heap.insertPair entries key value).2 := by
  unfold Heap.insertPair
  split
  · refine Remains.trans ?_ (Remains.release _ key)
    split
    · exact (Remains.enterSlot heap value).trans (Remains.dropSlots _ _)
    · exact Remains.enterSlot heap value
  · exact (Remains.enterSlot heap key).trans (Remains.enterSlot _ value)

theorem Remains.insertPairs (heap : Heap) (entries pairs : List (Address × Address)) :
    Remains heap (heap.insertPairs entries pairs).2 := by
  induction pairs generalizing heap entries with
  | nil => exact .refl heap
  | cons pair others induction =>
      exact (Remains.insertPair heap entries pair.1 pair.2).trans (induction _ _)

theorem mem_children_of_mem_map (member : key ∈ entries.map Prod.fst) :
    key ∈ ((Payload.dict entries).children : Multiset Address) :=
  Multiset.mem_coe.mpr (mem_children_of_mem_keys member)

/-- A dict under construction in a keyed heap. -/
structure Assembling (heap : Heap) (entries : List (Address × Address))
    (slots handles : Multiset Address) : Prop where
  sound : heap.Sound ((Payload.dict entries).children + slots) handles
  keyed : heap.Keyed
  distinct : heap.Distinct entries

namespace Assembling

theorem insertPair
    (assembling : heap.Assembling entries slots (key ::ₘ value ::ₘ handles)) :
    (heap.insertPair entries key value).2.Assembling (heap.insertPair entries key value).1 slots
      handles := by
  obtain ⟨sound, keyed, distinct⟩ := assembling
  have remains := Remains.insertPair heap entries key value
  have sound' : (heap.insertPair entries key value).2.Sound
      ((Payload.dict (heap.insertPair entries key value).1).children + slots) handles := by
    have started : heap.Sound ((Payload.dict entries).children + 0 + slots)
        (key ::ₘ value ::ₘ 0 + handles) := by
      simpa using sound
    have inserted := (Sound.crafting slots handles).insertPair started
    simpa using inserted
  refine ⟨sound', remains.keyed sound sound' keyed, ?_⟩
  have listed : ∀ {other}, other ∈ entries.map Prod.fst →
      other ∈ ((Payload.dict entries).children + slots : Multiset Address) +
        (key ::ₘ value ::ₘ handles) := by
    intro other member
    simp [mem_children_of_mem_keys member]
  have compare : ∀ {left right}, left ∈ (Payload.dict entries).children + slots +
        (key ::ₘ value ::ₘ handles) → right ∈ (Payload.dict entries).children + slots +
        (key ::ₘ value ::ₘ handles) →
      left ∈ (heap.insertPair entries key value).1.map Prod.fst →
      right ∈ (heap.insertPair entries key value).1.map Prod.fst →
      (heap.insertPair entries key value).2.equals left right = heap.equals left right := by
    intro left right old old' still still'
    apply remains.survives.equals_slotted sound sound' ⟨old, old'⟩
    constructor
    · exact Multiset.mem_add.mpr (Or.inl (mem_children_of_mem_map still))
    · exact Multiset.mem_add.mpr (Or.inl (mem_children_of_mem_map still'))
  unfold Distinct
  cases found : heap.findEntry? entries key with
  | some position =>
      have same : (heap.insertPair entries key value).1.map Prod.fst = entries.map Prod.fst := by
        simp [Heap.insertPair, found]
      rw [same] at compare ⊢
      apply distinct.imp_of_mem
      intro first second member member' different
      rwa [compare (listed member) (listed member') member member']
  | none =>
      have same : (heap.insertPair entries key value).1.map Prod.fst =
          entries.map Prod.fst ++ [key] := by
        simp [Heap.insertPair, found]
      rw [same] at compare ⊢
      rw [List.pairwise_append]
      refine ⟨?_, List.pairwise_singleton _ key, ?_⟩
      · apply distinct.imp_of_mem
        intro first second member member' different
        rwa [compare (listed member) (listed member') (List.mem_append_left _ member)
          (List.mem_append_left _ member')]
      · intro first member last lastly
        rw [List.mem_singleton.mp lastly, compare (listed member) (by simp)
          (List.mem_append_left _ member) (by simp)]
        obtain ⟨entry, inside, rfl⟩ := List.mem_map.mp member
        rw [ findEntry?, List.findIdx?_eq_none_iff] at found
        exact found entry inside

theorem insertPairs {pairs : List (Address × Address)}
    (assembling : heap.Assembling entries slots ((Payload.dict pairs).children + handles)) :
    (heap.insertPairs entries pairs).2.Assembling (heap.insertPairs entries pairs).1 slots
      handles := by
  induction pairs generalizing heap entries with
  | nil => simpa [Heap.insertPairs, Payload.children] using assembling
  | cons pair others induction =>
      obtain ⟨key, value⟩ := pair
      apply induction
      apply insertPair
      simpa [Payload.children, ← Multiset.cons_coe] using assembling

end Assembling

/-! ## Heaps that stay keyed -/

/-- A new dict has keys that differ from each other. -/
theorem Sound.keyed_allocate {payload : Payload} (type : StaticType)
    (sound : heap.Sound (payload.children + slots) handles) (keyed : heap.Keyed)
    (distinct : ∀ entries, payload = .dict entries → heap.Distinct entries) :
    (heap.allocate type payload).2.Keyed := by
  have started : heap.Sound (payload.children + 0 + slots) (0 + handles) := by simpa using sound
  have sound' := (Sound.crafting slots handles).allocate payload type started
  have survives := Survives.allocate heap type payload
  apply survives.keyed sound sound' keyed
  intro dict new
  rcases Nat.eq_or_lt_of_le new with rfl | beyond
  · cases payload with
    | scalar value => simp [keys, Heap.entries, payload?_allocate]
    | vector elements => simp [keys, Heap.entries, payload?_allocate]
    | dict entries =>
        rw [keys_of_payload? (by rw [payload?_allocate, if_pos rfl])]
        have alike : ∀ {key}, key ∈ entries.map Prod.fst →
            Alike heap (heap.allocate type (.dict entries)).2 key := by
          intro key member
          have slotted : key ∈ heap.stored + ((Payload.dict entries).children + slots) + handles := by
            simp [mem_children_of_mem_keys member]
          obtain ⟨object, alive⟩ := sound.balanced.alive slotted
          have old := lt_size_of_get?_eq_some alive
          apply survives.alike sound.balanced sound'.balanced old
          rw [payload?_allocate, if_neg (Nat.ne_of_lt old), payload?_of_get? alive]
          simp
        apply (distinct entries rfl).imp_of_mem
        intro first second member member' different
        rwa [(alike member).equals (alike member')]
  · have absent : (heap.allocate type payload).2.payload? dict = none := by
      rw [payload?_allocate, if_neg (Nat.ne_of_gt beyond), payload?,
        get?_eq_none_of_size_le (Nat.le_of_lt beyond)]
      rfl
    simp [keys, Heap.entries, absent]

theorem Sound.keyed_newDict {pairs : List (Address × Address)} (keyType valueType : StaticType)
    (sound : heap.Sound slots ((Payload.dict pairs).children + handles)) (keyed : heap.Keyed) :
    (heap.newDict keyType valueType pairs).2.Keyed := by
  have started : heap.Assembling [] slots ((Payload.dict pairs).children + handles) := by
    refine ⟨?_, keyed, .nil⟩
    simpa [Payload.children] using sound
  obtain ⟨sound, keyed, distinct⟩ := started.insertPairs
  apply sound.keyed_allocate (.dict keyType valueType) keyed
  intro entries same
  rwa [← Payload.dict.inj same]

theorem Sound.keyed_newVector {elements : List Address} (element : StaticType)
    (sound : heap.Sound slots (elements + handles)) (keyed : heap.Keyed) :
    (heap.newVector element elements).2.Keyed := by
  have remains := Remains.enterSlots heap elements
  have started : heap.Sound (0 + slots) (elements + 0 + handles) := by simpa using sound
  have entered := (Sound.crafting slots handles).enterSlots started
  have sound' : (heap.enterSlots elements).Sound ((Payload.vector elements).children + slots)
      handles := by
    simpa [Payload.children] using entered
  exact sound'.keyed_allocate _ (remains.keyed sound sound' keyed) fun _ => Payload.noConfusion

/-- A new object without slots. -/
theorem Sound.keyed_empty {payload : Payload} (type : StaticType)
    (sound : heap.Sound slots handles) (keyed : heap.Keyed) (empty : payload.children = []) :
    (heap.allocate type payload).2.Keyed := by
  have started : heap.Sound (payload.children + slots) handles := by simpa [empty] using sound
  apply started.keyed_allocate type keyed
  rintro entries rfl
  cases entries with
  | nil => exact .nil
  | cons entry others => simp [Payload.children] at empty

theorem Sound.keyed_newDefault (type : StaticType) (sound : heap.Sound slots handles)
    (keyed : heap.Keyed) : (heap.newDefault type).2.Keyed := by
  apply sound.keyed_empty _ keyed
  split
  · rfl
  · split
    · rfl
    · rfl

/-- What runs make of a keyed heap is keyed. -/
theorem Fashioned.keyed {given made : Multiset Address}
    (fashioned : Fashioned before given after made) {handles : Multiset Address}
    (sound : before.Sound slots (given + handles)) (keyed : before.Keyed) : after.Keyed := by
  induction fashioned generalizing handles with
  | refl heap given => exact keyed
  | trans first second one other =>
      exact other (sound.crafted first.crafted) (one sound keyed)
  | frame others _ induction =>
      rw [add_assoc] at sound
      exact induction sound keyed
  | newScalar heap value =>
      rw [zero_add] at sound
      exact sound.keyed_empty value.type keyed rfl
  | newDefault heap type =>
      rw [zero_add] at sound
      exact sound.keyed_newDefault type keyed
  | newVector heap element elements => exact sound.keyed_newVector element keyed
  | newDict heap key value pairs => exact sound.keyed_newDict key value keyed
  | copy heap address =>
      rw [zero_add] at sound
      exact sound.keyed_copy keyed address
  | releaseAll heap addresses =>
      have sound' := sound.crafted (Crafted.releaseAll heap addresses)
      exact (Remains.releaseAll heap addresses).keyed sound sound' keyed

end Heap

end ScriptEngine
