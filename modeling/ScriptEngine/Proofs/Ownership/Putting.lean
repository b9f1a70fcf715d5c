import ScriptEngine.Proofs.Ownership.Entries
import ScriptEngine.Proofs.Custody.Walks

/-!
# What is put in a place

The object that is stored in a place is the one that is found there afterwards, and a
place holds what it holds as long as nothing is done to its slot.
-/

namespace ScriptEngine

theorem Heap.getElem?_setEntry {entries : List (Address × Address)} {position : Nat}
    {pair : Address × Address} (found : entries[position]? = some pair) (value : Address) :
    (setEntry entries position value)[position]? = some (pair.1, value) := by
  rw [setEntry, List.getElem?_modify_eq, found]
  rfl

namespace Place

variable {place : Place} {scopes later : Scopes} {heap after : Heap} {previous value : Address}

/-- Nothing has been done to the slot. -/
theorem load_congr (loaded : place.load scopes heap = .ok value)
    (bound : ∀ {depth name}, place = .binding depth name →
      later.get? depth name = scopes.get? depth name)
    (same : ∀ container ∈ place.handles, after.payload? container = heap.payload? container) :
    place.load later after = .ok value := by
  cases place with
  | binding depth name =>
      rw [load] at loaded ⊢
      rw [bound rfl]
      exact loaded
  | element vector position =>
      have payload := same vector (List.mem_singleton_self vector)
      simp only [load, payload] at loaded ⊢
      split at loaded
      · exact loaded
      · simp at loaded
  | entry dict position =>
      have payload := same dict (List.mem_singleton_self dict)
      simp only [load, payload] at loaded ⊢
      split at loaded
      · exact loaded
      · simp at loaded

theorem store_of_load (loaded : place.load scopes heap = .ok previous) (value : Address) :
    place.store scopes heap value =
      (.ok previous, (place.point scopes (heap.enterSlot value) value).1,
        (place.point scopes (heap.enterSlot value) value).2.leaveSlot previous) := by
  rw [store, loaded]

theorem load_point (loaded : place.load scopes heap = .ok previous) (value : Address) :
    place.load (place.point scopes heap value).1 (place.point scopes heap value).2 = .ok value := by
  cases place with
  | binding depth name =>
      rw [load] at loaded
      split at loaded
      · rename_i found
        rw [point, load, Scopes.get?_put depth name value (Scopes.lt_depth_of_get? found),
          if_pos ⟨rfl, rfl⟩]
      · simp at loaded
  | element vector position =>
      rw [load] at loaded
      split at loaded
      · rename_i elements found
        split at loaded
        · rename_i stored
          have inside := (List.getElem?_eq_some_iff.mp stored).1
          simp only [point, found, load, Heap.payload?_setPayload_self found,
            List.getElem?_set_self inside]
        · simp at loaded
      · simp at loaded
  | entry dict position =>
      rw [load] at loaded
      split at loaded
      · rename_i entries found
        split at loaded
        · rename_i pair stored
          simp only [point, found, load, Heap.payload?_setPayload_self found,
            Heap.getElem?_setEntry stored]
        · simp at loaded
      · simp at loaded

/-- What is stored is what is loaded then, and what was there is handed back. -/
theorem load_store (loaded : place.load scopes heap = .ok previous) (value : Address) :
    ∃ scopes' heap', place.store scopes heap value = (.ok previous, scopes', heap') ∧
      place.load scopes' heap' = .ok value := by
  refine ⟨_, _, store_of_load loaded value, ?_⟩
  have entered : place.load scopes (heap.enterSlot value) = .ok previous :=
    load_congr loaded (fun _ => rfl) fun container _ => Heap.payload?_enterSlot heap value container
  exact load_congr (load_point entered value) (fun _ => rfl)
    fun container _ => Heap.payload?_leaveSlot _ previous container

/-- What is in a slot is held by its container. -/
theorem holds_of_load {container : Address} (loaded : place.load scopes heap = .ok value)
    (member : container ∈ place.handles) : heap.Holds container value := by
  cases leads_of_load loaded with
  | binding same _ => simp [same, handles] at member
  | inside _ only living offered _ _ =>
      rw [only, List.mem_singleton] at member
      rw [member]
      exact ⟨_, Heap.payload?_of_get? living, Payload.mem_children_of_mem_offers offered⟩

end Place

end ScriptEngine
