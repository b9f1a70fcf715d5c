import ScriptEngine.Proofs.Custody.Walks
import ScriptEngine.Proofs.Ownership.Contents
import ScriptEngine.Proofs.Ownership.Sprouts

/-!
# Lookups by contents

Where a key leads in a container depends on its contents alone, if there is no NaN in
them.  It leads there still in a later heap, as long as the container lives and the
keys that it had have their contents.
-/

namespace ScriptEngine

/-- What a key is to a vector. -/
def Tree.shape : Tree → Payload
  | .scalar _ value => .scalar value
  | .vector _ _ => .vector []
  | .dict _ _ => .dict []

/-- The place of a slot in a container. -/
inductive Place.IsSlot (container : Address) : Place → Spot → Prop where
  | element (position : Nat) : IsSlot container (.element container position) (.element position)
  | entry (position : Nat) : IsSlot container (.entry container position) (.entry position)

namespace Heap

variable {heap before after : Heap} {container key value address : Address} {place : Place} {tree : Tree}
variable {slots handles slots' handles' : Multiset Address}

/-! ## Keys by contents -/

theorem findEntry?_eq_keys (heap : Heap) (entries : List (Address × Address)) (key : Address) :
    heap.findEntry? entries key = (entries.map Prod.fst).findIdx? (heap.equals · key) := by
  rw [ Heap.findEntry?, List.findIdx?_map]
  rfl

theorem findIdx?_congr {α : Type} {first second : α → Bool} {items : List α}
    (same : ∀ item ∈ items, first item = second item) :
    items.findIdx? first = items.findIdx? second := by
  induction items with
  | nil => rfl
  | cons item items induction =>
      rw [List.findIdx?_cons, List.findIdx?_cons, same item List.mem_cons_self,
        induction fun other member => same other (List.mem_cons_of_mem _ member)]

/-- Where a key with the contents is among others. -/
def findTree? (heap : Heap) (keys : List Address) (tree : Tree) : Option Nat :=
  (keys.map heap.tree).findIdx? (·.equals tree)

/-- Where a key with the contents leads in a container. -/
def spotAt (heap : Heap) (container : Address) (tree : Tree) : Except Cause Spot :=
  match heap.payload? container with
  | some (.vector elements) => (vectorPosition tree.shape elements.length).map Spot.element
  | some (.dict entries) =>
      match heap.findTree? (entries.map Prod.fst) tree with
      | some position => .ok (.entry position)
      | none => .ok .absent
  | _ => .error (.notIndexable (heap.kind container).name)

/-- The object that a key with the contents leads to. -/
def readAt (heap : Heap) (container : Address) (tree : Tree) : Except Cause Address :=
  match heap.spotAt container tree with
  | .error cause => .error cause
  | .ok (.element position) =>
      match heap.element? container position with
      | some value => .ok value
      | none => .error (.indexOutOfRange (toString position) 0)
  | .ok (.entry position) =>
      match heap.entry? container position with
      | some entry => .ok entry.2
      | none => .error .invalidAssignmentTarget
  | .ok .absent => .error (.keyNotFound (tree.render true))

theorem vectorPosition_shape (depicts : heap.Depicts key tree) (length : Nat) :
    ∃ payload, heap.payload? key = some payload ∧
      vectorPosition payload length = vectorPosition tree.shape length := by
  cases tree with
  | scalar type value => exact ⟨_, depicts, rfl⟩
  | vector type trees =>
      obtain ⟨elements, found, _⟩ := depicts
      exact ⟨_, found, rfl⟩
  | dict type pairs =>
      obtain ⟨entries, found, _⟩ := depicts
      exact ⟨_, found, rfl⟩

section

variable (balanced : heap.Balanced slots handles)
  (ends : ∀ key ∈ heap.keys container, heap.EndsWithin heap.cells.size key)
include balanced

theorem Balanced.alive_of_mem_keys (member : key ∈ heap.keys container) :
    heap.payload? key ≠ none :=
  balanced.closed (holds_of_mem_keys member)

include ends

theorem findEntry?_eq {entries : List (Address × Address)}
    (found : heap.payload? container = some (.dict entries)) (depicts : heap.Depicts key tree)
    (proper : tree.hasNan = false) :
    heap.findEntry? entries key = heap.findTree? (entries.map Prod.fst) tree := by
  rw [findEntry?_eq_keys, findTree?, @List.findIdx?_map _ _ (·.equals tree) heap.tree]
  apply findIdx?_congr
  intro other inside
  have member : other ∈ heap.keys container := by rwa [keys_of_payload? found]
  have shown := balanced.depicts (ends other member) (balanced.alive_of_mem_keys member)
  exact (ends other member).equals_eq shown depicts proper

/-- A key leads where its contents do. -/
theorem spot_eq (depicts : heap.Depicts key tree) (proper : tree.hasNan = false) :
    heap.spot container key = heap.spotAt container tree := by
  unfold spot spotAt
  cases found : heap.payload? container with
  | none => rfl
  | some payload =>
      cases payload with
      | scalar value => rfl
      | vector elements =>
          obtain ⟨payload, present, same⟩ := vectorPosition_shape depicts elements.length
          simp only [present, same]
      | dict entries =>
          have same := findEntry?_eq balanced ends found depicts proper
          cases position : heap.findTree? (entries.map Prod.fst) tree with
          | none => simp only [same, position]
          | some index => simp only [same, position]

end

theorem Sound.spot_eq (sound : heap.Sound slots handles) (depicts : heap.Depicts key tree)
    (proper : tree.hasNan = false) : heap.spot container key = heap.spotAt container tree :=
  Heap.spot_eq sound.balanced (fun key _ => sound.acyclic.endsWithin key) depicts proper

/-! ## Slots that were found -/

theorem load_element_iff {scopes : Scopes} {position : Nat} :
    (Place.element container position).load scopes heap = .ok value ↔
      heap.element? container position = some value := by
  cases found : heap.payload? container with
  | none => simp [Place.load, element?, found]
  | some payload =>
      cases payload with
      | scalar value => simp [Place.load, element?, found]
      | vector elements =>
          cases stored : elements[position]? <;> simp [Place.load, element?, found, stored]
      | dict entries => simp [Place.load, element?, found]

theorem load_entry_iff {scopes : Scopes} {position : Nat} :
    (Place.entry container position).load scopes heap = .ok value ↔
      ∃ key, heap.entry? container position = some (key, value) := by
  cases found : heap.payload? container with
  | none => simp [Place.load, Heap.entry?, Heap.entries, found]
  | some payload =>
      cases payload with
      | scalar value => simp [Place.load, Heap.entry?, Heap.entries, found]
      | vector elements => simp [Place.load, Heap.entry?, Heap.entries, found]
      | dict entries =>
          cases stored : entries[position]? <;>
            simp [Place.load, Heap.entry?, Heap.entries, found, stored, Prod.ext_iff]

/-- A slot that is found can be read and loaded alike. -/
theorem readAt_of_load {place : Place} {spot : Spot} (isSlot : place.IsSlot container spot)
    (found : heap.spotAt container tree = .ok spot) {scopes : Scopes}
    (loaded : place.load scopes heap = .ok value) : heap.readAt container tree = .ok value := by
  unfold readAt
  rw [found]
  cases isSlot with
  | element position => simp [load_element_iff.mp loaded]
  | entry position =>
      obtain ⟨key, stored⟩ := load_entry_iff.mp loaded
      simp [stored]

theorem slot_of_readAt (read : heap.readAt container tree = .ok value) (scopes : Scopes) :
    ∃ (place : Place) (spot : Spot), place.IsSlot container spot ∧ spot ≠ .absent ∧
      heap.spotAt container tree = .ok spot ∧ place.load scopes heap = .ok value := by
  unfold readAt at read
  split at read
  · simp at read
  · rename_i position found
    refine ⟨_, _, .element position, by simp, found, load_element_iff.mpr ?_⟩
    split at read
    · cases read
      assumption
    · simp at read
  · rename_i position found
    refine ⟨_, _, .entry position, by simp, found, load_entry_iff.mpr ?_⟩
    split at read
    · rename_i pair stored
      cases read
      exact ⟨pair.1, stored⟩
    · simp at read
  · simp at read

/-- Keys are found where they were if those before them have their contents. -/
theorem findTree?_of_longer {keys later : List Address} {position : Nat} (grown : keys <+: later)
    (kept : ∀ key ∈ keys, after.tree key = before.tree key)
    (found : before.findTree? keys tree = some position) :
    after.findTree? later tree = some position := by
  obtain ⟨more, rfl⟩ := grown
  rw [findTree?] at found ⊢
  rw [List.map_append, List.map_congr_left kept, List.findIdx?_append, found]
  rfl

/-- A key that was missing is found where it has been added. -/
theorem findTree?_of_added {keys later : List Address} (grown : keys ++ [key] <+: later)
    (kept : ∀ key ∈ keys, after.tree key = before.tree key) (contents : after.tree key = tree)
    (proper : tree.hasNan = false) (missing : before.findTree? keys tree = none) :
    after.findTree? later tree = some keys.length := by
  obtain ⟨more, rfl⟩ := grown
  rw [findTree?] at missing ⊢
  rw [List.append_assoc, List.map_append, List.map_congr_left kept, List.findIdx?_append, missing,
    List.singleton_append, List.map_cons, List.findIdx?_cons, contents, tree.equals_self proper]
  simp

/-- What a dict has after another moment: its keys, perhaps with more after them, and
with the contents that they had. -/
theorem spotAt_of_keys {spot : Spot} (evolves : before.Evolves after)
    (alive : after.payload? container ≠ none)
    (kept : ∀ key ∈ before.keys container, after.tree key = before.tree key)
    (found : before.spotAt container tree = .ok spot) (present : spot ≠ .absent) :
    after.spotAt container tree = .ok spot := by
  obtain ⟨payload, living⟩ := Option.ne_none_iff_exists'.mp alive
  unfold spotAt at found ⊢
  cases past : before.payload? container with
  | none => simp [past] at found
  | some earlier =>
      cases earlier with
      | scalar value => simp [past] at found
      | vector elements =>
          obtain ⟨later, rfl, length⟩ := evolves.vector past living
          rw [past] at found
          rw [living]
          simp only at found ⊢
          rw [length]
          exact found
      | dict entries =>
          obtain ⟨later, rfl, grown⟩ := evolves.dict past living
          rw [keys_of_payload? past] at kept
          rw [past] at found
          rw [living]
          simp only at found ⊢
          cases position : before.findTree? (entries.map Prod.fst) tree with
          | none =>
              rw [position] at found
              cases found
              exact absurd rfl present
          | some index =>
              rw [position] at found
              rw [findTree?_of_longer grown kept position]
              exact found

/-! ## Places for writing -/

/-- A place for writing is there, or it is that of an entry which is created. -/
theorem locate_write_cases (located : heap.locate container key .write = (.ok place, after)) :
    ((∃ position, heap.spot container key = .ok (.element position) ∧
        place = .element container position ∨
      heap.spot container key = .ok (.entry position) ∧ place = .entry container position) ∧
      after = (heap.release key).retain container) ∨
    ∃ entries, heap.payload? container = some (.dict entries) ∧
      heap.findEntry? entries key = none ∧ place = .entry container entries.length ∧
      after = (heap.createEntry container key entries).retain container := by
  unfold locate at located
  split at located
  · simp at located
  · rename_i position found
    cases located
    exact Or.inl ⟨⟨position, Or.inl ⟨found, rfl⟩⟩, rfl⟩
  · rename_i position found
    cases located
    exact Or.inl ⟨⟨position, Or.inr ⟨found, rfl⟩⟩, rfl⟩
  · rename_i absent
    cases located
    obtain ⟨payload, missing⟩ := dict_of_absent absent
    exact Or.inr ⟨_, payload, missing, rfl, rfl⟩

theorem size_le_of_locate (located : heap.locate container key .write = (.ok place, after)) :
    heap.cells.size ≤ after.cells.size := by
  rcases locate_write_cases located with ⟨_, rfl⟩ | ⟨entries, payload, _, _, rfl⟩
  · exact ((Remains.release heap key).trans (Remains.retain _ container)).size
  · exact (Evolves.createEntry payload).size.trans (Remains.retain _ container).size

/-- What is in a slot was there if its container survives. -/
theorem Survives.load (survives : Survives heap after) {scopes : Scopes}
    (loaded : place.load scopes after = .ok address)
    (old : ∀ container ∈ place.handles, container < heap.cells.size) :
    place.load scopes heap = .ok address := by
  have same : ∀ {container payload}, container ∈ place.handles →
      after.payload? container = some payload → heap.payload? container = some payload :=
    fun member found => survives.payload (old _ member) found
  cases place with
  | binding depth name => exact loaded
  | element vector position =>
      simp only [Place.load] at loaded ⊢
      split at loaded
      · rename_i elements found
        rw [same (List.mem_singleton_self vector) found]
        exact loaded
      · simp at loaded
  | entry dict position =>
      simp only [Place.load] at loaded ⊢
      split at loaded
      · rename_i entries found
        rw [same (List.mem_singleton_self dict) found]
        exact loaded
      · simp at loaded

section

variable (located : before.locate container key .write = (.ok place, after))
include located

/-- Once a place for writing has been found, its key leads there. -/
theorem spotAt_of_locate (same : before.spot container key = before.spotAt container tree)
    (alive : after.payload? container ≠ none)
    (kept : ∀ other ∈ before.keys container, after.tree other = before.tree other)
    (contents : key ∈ after.keys container → after.tree key = tree) (proper : tree.hasNan = false) :
    ∃ spot, place.IsSlot container spot ∧ spot ≠ .absent ∧ after.spotAt container tree = .ok spot := by
  rcases locate_write_cases located with ⟨⟨position, found⟩, rfl⟩ |
    ⟨entries, payload, missing, rfl, created⟩
  · have evolves := ((Remains.release before key).trans (Remains.retain _ container)).evolves
    rw [same] at found
    rcases found with ⟨found, rfl⟩ | ⟨found, rfl⟩
    · exact ⟨_, .element position, by simp, spotAt_of_keys evolves alive kept found (by simp)⟩
    · exact ⟨_, .entry position, by simp, spotAt_of_keys evolves alive kept found (by simp)⟩
  · refine ⟨_, .entry entries.length, by simp, ?_⟩
    have present : after.payload? container =
        some (.dict (entries ++ [(key, before.cells.size)])) := by
      rw [created, payload?_retain, payload?_createEntry key payload]
    rw [keys_of_payload? payload] at kept
    have absent : before.findTree? (entries.map Prod.fst) tree = none := by
      unfold spot spotAt at same
      rw [payload] at same
      simp only [missing] at same
      split at same
      · cases same
      · assumption
    have found := findTree?_of_added (List.prefix_refl _) kept
      (contents (by simp [keys_of_payload? present])) proper absent
    unfold spotAt
    rw [present]
    simp only [List.map_append, List.map_cons, List.map_nil, found, List.length_map]

theorem Sound.spotAt_of_locate (sound : before.Sound slots handles)
    (sound' : after.Sound slots' handles') (owned : before.payload? key ≠ none)
    (alive : after.payload? container ≠ none) (proper : (before.tree key).hasNan = false) :
    ∃ spot, place.IsSlot container spot ∧ spot ≠ .absent ∧
      after.spotAt container (before.tree key) = .ok spot := by
  have depicts := sound.balanced.depicts (sound.acyclic.endsWithin key) owned
  have but : SurvivesBut container before after := by
    rcases locate_write_cases located with ⟨_, rfl⟩ | ⟨entries, payload, _, _, rfl⟩
    · exact ((Remains.release before key).trans (Remains.retain _ container)).survives.but container
    · exact (SurvivesBut.createEntry payload).survives (Remains.retain _ container).survives
  have contents : ∀ other ∈ after.keys container, before.payload? other ≠ none →
      after.tree other = before.tree other := by
    intro other member living
    obtain ⟨content, found⟩ := Option.ne_none_iff_exists'.mp living
    have alike := but.alike sound.balanced sound'.balanced sound'.acyclic (holds_of_mem_keys member)
      (lt_size_of_payload? found)
    exact alike.tree sound.grounded sound'.grounded
  refine Heap.spotAt_of_locate located (sound.spot_eq depicts proper) alive ?_
    (fun member => contents key member owned) proper
  intro other member
  obtain ⟨entries, found, inside⟩ := exists_entries_of_mem_keys member
  obtain ⟨payload, living⟩ := Option.ne_none_iff_exists'.mp alive
  refine contents other ?_ (sound.balanced.alive_of_mem_keys member)
  have evolves : before.Evolves after := by
    rcases locate_write_cases located with ⟨_, rfl⟩ | ⟨pairs, present, _, _, rfl⟩
    · exact ((Remains.release before key).trans (Remains.retain _ container)).evolves
    · exact (Evolves.createEntry present).trans (Remains.retain _ container).evolves
  obtain ⟨later, rfl, grown⟩ := evolves.dict found living
  rw [keys_of_payload? living]
  exact grown.subset inside

end

/-! ## Reading with new keys -/

/-- Read along keys with given contents. -/
def readAlong (heap : Heap) (container : Address) : List Tree → Except Cause Address
  | [] => .ok container
  | tree :: trees =>
      match heap.readAt container tree with
      | .error cause => .error cause
      | .ok next => heap.readAlong next trees

/-- What is read with a key that is made for it. -/
def readFresh (heap : Heap) (container : Address) (tree : Tree) : Except Cause Address :=
  ((heap.build tree).2.readElement container (heap.build tree).1).1

/-- What is read along keys that are made for it. -/
def readPath (heap : Heap) (container : Address) : List Tree → Except Cause Address
  | [] => .ok container
  | tree :: trees =>
      match heap.readFresh container tree with
      | .error cause => .error cause
      | .ok next => heap.readPath next trees

theorem readElement_fst (heap : Heap) (container key : Address) :
    (heap.readElement container key).1 = heap.valueAt container key := by
  unfold readElement
  cases heap.valueAt container key with
  | error cause => rfl
  | ok value => rfl

/-- A new key leads where others with its contents do. -/
theorem Sound.readFresh_eq (sound : heap.Sound slots handles) (proper : tree.hasNan = false)
    (read : heap.readAt container tree = .ok value) : heap.readFresh container tree = .ok value := by
  have crafted := Crafted.build heap tree
  have started : heap.Sound slots (0 + handles) := by rwa [zero_add]
  have sound' := started.crafted crafted
  have extends' := Extends.build heap tree
  have depicts := build_depicts tree heap
  have same : heap.payload? container ≠ none →
      (heap.build tree).2.payload? container = heap.payload? container := by
    intro alive
    obtain ⟨payload, found⟩ := Option.ne_none_iff_exists'.mp alive
    exact extends'.2 container (lt_size_of_payload? found)
  rw [readFresh, readElement_fst]
  unfold readAt at read
  cases found : heap.spotAt container tree with
  | error cause => simp [found] at read
  | ok spot =>
      have alive : heap.payload? container ≠ none := by
        intro absent
        simp [spotAt, absent] at found
      have present : spot ≠ .absent := by
        rintro rfl
        simp [found] at read
      have keeps := crafted.survives.keepsKeys sound sound'
      have located := spotAt_of_keys crafted.survives.evolves (same alive ▸ alive)
        (fun key member => keeps.contents member (same alive ▸ alive)) found present
      unfold valueAt
      rw [sound'.spot_eq depicts proper, located]
      rw [found] at read
      cases spot with
      | element position =>
          simp only [element?, same alive]
          exact read
      | entry position =>
          simp only [same alive, Heap.entries, entry?]
          exact read
      | absent => exact absurd rfl present

theorem Sound.readPath_eq (sound : heap.Sound slots handles) {trees : List Tree}
    (proper : ∀ tree ∈ trees, tree.hasNan = false)
    (read : heap.readAlong container trees = .ok value) :
    heap.readPath container trees = .ok value := by
  induction trees generalizing container with
  | nil => exact read
  | cons tree trees induction =>
      rw [readAlong] at read
      split at read
      · cases read
      · rename_i next found
        rw [readPath, sound.readFresh_eq (proper tree List.mem_cons_self) found]
        exact induction (fun other member => proper other (List.mem_cons_of_mem _ member)) read

end Heap

end ScriptEngine
