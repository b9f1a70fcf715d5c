import ScriptEngine.Proofs.Ownership.Confinement
import ScriptEngine.Proofs.Ownership.Putting
import ScriptEngine.Proofs.Hosting.Storing

/-!
# Paths of keys

Keys are followed from a container to the object that is in the last of their slots.  The
same object is read along them as long as nothing is done to these slots, and no entry
is created for a key that was missing.
-/

namespace ScriptEngine

namespace Heap

variable {heap before after : Heap} {root container key value : Address} {keys : List Address}
  {place : Place} {scopes : Scopes} {slots handles slots' handles' : Multiset Address}

/-- What is read along keys. -/
def readThrough (heap : Heap) (container : Address) : List Address → Except Cause Address
  | [] => .ok container
  | key :: keys =>
      match heap.valueAt container key with
      | .error cause => .error cause
      | .ok inner => heap.readThrough inner keys

/-- Read along keys with a copy of the handle on each, and with a handle on the container
that is given back. -/
def readChain (heap : Heap) (container : Address) : List Address → Except Cause Address × Heap
  | [] => (.ok container, heap)
  | key :: keys =>
      match (heap.retain key).readElement container key with
      | (.error cause, heap) => (.error cause, heap.release container)
      | (.ok inner, heap) => (heap.release container).readChain inner keys

/-- The slot that a key leads to. -/
def SlotAt (heap : Heap) (container key : Address) (place : Place) : Prop :=
  ∃ spot, heap.spot container key = .ok spot ∧ place.IsSlot container spot

/-- Somewhere on the path there is a key of which something holds at its container. -/
inductive Passes (heap : Heap) (test : Address → Address → Prop) : Address → List Address → Prop where
  | here {container key : Address} (keys : List Address) :
      test container key → Passes heap test container (key :: keys)
  | there {container key inner : Address} {keys : List Address} :
      heap.valueAt container key = .ok inner → Passes heap test inner keys →
      Passes heap test container (key :: keys)

/-! ## Slots and their values -/

theorem SlotAt.exists_load (slotAt : heap.SlotAt container key place) (scopes : Scopes) :
    ∃ value, place.load scopes heap = .ok value := by
  obtain ⟨spot, found, isSlot⟩ := slotAt
  cases isSlot with
  | element position =>
      obtain ⟨elements, value, payload, stored⟩ := element_of_spot found
      exact ⟨value, load_element_iff.mpr (by simp [element?, payload, stored])⟩
  | entry position =>
      obtain ⟨entries, pair, payload, stored⟩ := entry_of_spot found
      refine ⟨pair.2, load_entry_iff.mpr ⟨pair.1, ?_⟩⟩
      simp [payload, stored, Heap.entries, entry?]

theorem SlotAt.valueAt (slotAt : heap.SlotAt container key place)
    (loaded : place.load scopes heap = .ok value) : heap.valueAt container key = .ok value := by
  obtain ⟨spot, found, isSlot⟩ := slotAt
  unfold Heap.valueAt
  rw [found]
  cases isSlot with
  | element position => simp [load_element_iff.mp loaded]
  | entry position =>
      obtain ⟨key, stored⟩ := load_entry_iff.mp loaded
      simp [stored]

theorem holds_of_valueAt (read : heap.valueAt container key = .ok value) :
    heap.Holds container value := by
  obtain ⟨object, alive, offered⟩ := offered_of_valueAt read
  exact ⟨_, payload?_of_get? alive, Payload.mem_children_of_mem_offers offered⟩

/-- The same is read where the key leads to the same slot, with the same in it. -/
theorem valueAt_congr (same : after.spot container key = before.spot container key)
    (kept : ∀ {place value}, before.SlotAt container key place →
      place.load scopes before = .ok value → place.load scopes after = .ok value)
    (text : after.tree key = before.tree key) :
    after.valueAt container key = before.valueAt container key := by
  have slot : ∀ {place}, before.SlotAt container key place →
      after.valueAt container key = before.valueAt container key := by
    intro place slotAt
    obtain ⟨value, loaded⟩ := slotAt.exists_load scopes
    obtain ⟨spot, found, isSlot⟩ := id slotAt
    have later : after.SlotAt container key place := ⟨spot, same.trans found, isSlot⟩
    rw [slotAt.valueAt loaded, later.valueAt (kept slotAt loaded)]
  cases found : before.spot container key with
  | error cause => simp only [valueAt, same, found]
  | ok spot =>
      cases spot with
      | element position => exact slot ⟨_, found, .element position⟩
      | entry position => exact slot ⟨_, found, .entry position⟩
      | absent => simp only [valueAt, same, found, render, text]

/-! ## Objects that are alike -/

namespace Alike

variable (size : after.cells.size = before.cells.size)
include size

theorem spot_eq (alike : Alike before after container) (alike' : Alike before after key) :
    after.spot container key = before.spot container key := by
  have equal : ∀ {other}, before.Holds container other →
      after.equals other key = before.equals other key := by
    intro other holds
    rw [Heap.equals, Heap.equals, size]
    exact (alike.child holds).equalWithin _ alike'
  unfold spot
  simp only [alike.payload, alike'.payload, kind]
  cases found : before.payload? container with
  | none => rfl
  | some payload =>
      cases payload with
      | scalar value => rfl
      | vector elements => rfl
      | dict entries =>
          have same : after.findEntry? entries key = before.findEntry? entries key := by
            rw [findEntry?_eq_keys, findEntry?_eq_keys]
            apply findIdx?_congr
            intro other member
            exact equal ⟨_, found, mem_children_of_mem_keys member⟩
          simp only [same]

theorem valueAt_eq (alike : Alike before after container) (alike' : Alike before after key) :
    after.valueAt container key = before.valueAt container key := by
  have text : after.tree key = before.tree key := by
    rw [Heap.tree, Heap.tree, size]
    exact treeWithin_eq _ fun reaches => alike' _ reaches
  refine @valueAt_congr _ _ _ _ {} (alike.spot_eq size alike') ?_ text
  rintro place value ⟨spot, _, isSlot⟩ loaded
  refine Place.load_congr loaded (fun _ => rfl) ?_
  cases isSlot <;> simp [Place.handles, alike.payload]

theorem readThrough_eq (alike : Alike before after container)
    (alikes : ∀ key ∈ keys, Alike before after key) :
    after.readThrough container keys = before.readThrough container keys := by
  induction keys generalizing container with
  | nil => rfl
  | cons key keys induction =>
      rw [readThrough, readThrough, alike.valueAt_eq size (alikes key List.mem_cons_self)]
      cases read : before.valueAt container key with
      | error cause => rfl
      | ok inner =>
          exact induction (alike.child (holds_of_valueAt read)) fun other member =>
            alikes other (List.mem_cons_of_mem _ member)

end Alike

theorem Remains.alike (remains : Remains before after) (balanced : before.Balanced slots handles)
    (balanced' : after.Balanced slots' handles') (alive : after.payload? key ≠ none) :
    Alike before after key := by
  obtain ⟨payload, found⟩ := Option.ne_none_iff_exists'.mp alive
  have old := lt_size_of_payload? found
  rw [remains.cells] at old
  exact remains.survives.alike balanced balanced' old alive

theorem mem_of_held (held : key ∈ slots + handles) (heap : Heap) :
    key ∈ heap.stored + slots + handles := by
  rw [add_assoc]
  exact Multiset.mem_add.mpr (Or.inr held)

theorem mem_held_cons (held : key ∈ slots + handles) (other : Address) :
    key ∈ slots + other ::ₘ handles := by
  rw [Multiset.add_cons]
  exact Multiset.mem_cons_of_mem held

theorem Balanced.payload?_ne_none (balanced : heap.Balanced slots handles)
    (held : key ∈ slots + handles) : heap.payload? key ≠ none := by
  obtain ⟨object, alive⟩ := balanced.alive (mem_of_held held heap)
  simp [payload?_of_get? alive]

theorem Balanced.release (balanced : heap.Balanced slots (key ::ₘ handles)) :
    (heap.release key).Balanced slots handles := by
  apply Balanced.releaseAll
  simpa using balanced

/-- Handles that come and go meanwhile make no difference. -/
theorem readChain_fst (balanced : heap.Balanced slots (container ::ₘ handles))
    (held : ∀ key ∈ keys, key ∈ slots + handles) :
    (heap.readChain container keys).1 = heap.readThrough container keys := by
  induction keys generalizing heap container with
  | nil => rfl
  | cons key keys induction =>
      have here := held key List.mem_cons_self
      have copied : (heap.retain key).Balanced slots (key ::ₘ container ::ₘ handles) :=
        balanced.retain (mem_of_held (mem_held_cons here container) heap)
      have remains := Remains.retain heap key
      have alike : Alike heap (heap.retain key) container :=
        remains.alike balanced copied (copied.payload?_ne_none (by simp))
      have alikeKey : Alike heap (heap.retain key) key :=
        remains.alike balanced copied (copied.payload?_ne_none (by simp))
      rw [readChain, readThrough, readElement, alike.valueAt_eq remains.cells alikeKey]
      cases read : heap.valueAt container key with
      | error cause => rfl
      | ok value =>
          have read' := (alike.valueAt_eq remains.cells alikeKey).trans read
          have stored := mem_stored_iff_holds.mpr ⟨container, holds_of_valueAt read'⟩
          have kept : ((((heap.retain key).retain value).release key).release container).Balanced
              slots (value ::ₘ handles) := by
            have shared : ((heap.retain key).retain value).Balanced slots
                (value ::ₘ key ::ₘ container ::ₘ handles) :=
              copied.retain (by simp [stored])
            rw [Multiset.cons_swap] at shared
            have released := shared.release
            rw [Multiset.cons_swap] at released
            exact released.release
          have remains' : Remains heap
              ((((heap.retain key).retain value).release key).release container) :=
            ((remains.trans (.retain _ value)).trans (.release _ key)).trans (.release _ container)
          rw [induction kept fun other member => held other (List.mem_cons_of_mem _ member)]
          apply Alike.readThrough_eq remains'.cells
          · exact remains'.alike balanced kept (kept.payload?_ne_none (by simp))
          · intro other member
            apply remains'.alike balanced kept
            exact kept.payload?_ne_none (mem_held_cons (held other (List.mem_cons_of_mem _ member)) _)

/-! ## Paths that nothing is done to -/

/-- Along keys that are as they were the same is read, unless they pass one whose slot is
filled anew or for which an entry is created. -/
theorem Confined.readThrough_eq {test : Address → Address → Prop}
    (confined : Confined root before after) (balanced : before.Balanced slots handles)
    (balanced' : after.Balanced slots' handles') (branches : before.Branches root)
    (kept : ∀ {container key place value}, before.SlotAt container key place →
      ¬ test container key → place.load scopes before = .ok value →
        after.payload? container ≠ none → place.load scopes after = .ok value)
    (still : ∀ {container key}, ¬ test container key → Alike before after key →
      container < before.cells.size → before.spot container key = .ok .absent →
        ∀ other ∈ after.keys container, other ∉ before.keys container →
          after.equals other key = false)
    (alikes : ∀ key ∈ keys, Alike before after key ∧ after.tree key = before.tree key)
    (way : before.Way root container) (old : container < before.cells.size)
    (alive : after.payload? container ≠ none) (avoids : ¬ before.Passes test container keys) :
    after.readThrough container keys = before.readThrough container keys := by
  induction keys generalizing container with
  | nil => rfl
  | cons key keys induction =>
      have apart : ¬ test container key := fun holds => avoids (.here keys holds)
      obtain ⟨alike, text⟩ := alikes key List.mem_cons_self
      have spots := confined.spot_eq balanced balanced' branches way alive old alike
        (still apart alike old)
      have same : after.valueAt container key = before.valueAt container key :=
        valueAt_congr spots (fun slotAt loaded => kept slotAt apart loaded alive) text
      rw [readThrough, readThrough, same]
      cases read : before.valueAt container key with
      | error cause => rfl
      | ok inner =>
          obtain ⟨object, living, offered⟩ := offered_of_valueAt read
          have stored := mem_stored_iff_holds.mpr ⟨container, holds_of_valueAt read⟩
          apply induction
          · exact fun other member => alikes other (List.mem_cons_of_mem _ member)
          · exact .offer way (payload?_of_get? living) offered
          · exact balanced.lt_size (by simp [stored])
          · exact balanced'.closed (holds_of_valueAt (same.trans read))
          · exact fun passes => avoids (.there read passes)

end Heap

end ScriptEngine
