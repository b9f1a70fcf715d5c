import ScriptEngine.Proofs.Ownership.Sealing

/-!
# Evolution of heaps

Whatever a run does, an object stays what it is while it lives: a scalar is never
changed, a vector keeps its length, and a dict its keys with their positions.  What
is gone does not come back.  So a slot that was there once is there as long as
the container it lies in.
-/

namespace ScriptEngine

/-- How the payload of an object can change. -/
inductive Payload.Evolves : Payload → Payload → Prop where
  | scalar (value : Scalar) : Evolves (.scalar value) (.scalar value)
  | vector {elements later : List Address} :
      later.length = elements.length → Evolves (.vector elements) (.vector later)
  | dict {entries later : List (Address × Address)} :
      entries.map Prod.fst <+: later.map Prod.fst → Evolves (.dict entries) (.dict later)

namespace Payload

variable {first second third : Payload}

namespace Evolves

theorem refl (payload : Payload) : payload.Evolves payload := by
  cases payload with
  | scalar value => exact .scalar value
  | vector elements => exact .vector rfl
  | dict entries => exact .dict List.prefix_rfl

theorem trans (before : first.Evolves second) (after : second.Evolves third) :
    first.Evolves third := by
  cases before with
  | scalar value => exact after
  | vector length =>
      cases after with
      | vector length' => exact .vector (length'.trans length)
  | dict grown =>
      cases after with
      | dict grown' => exact .dict (grown.trans grown')

end Evolves

/-- Another object in a slot. -/
theorem Refills.evolves {added removed : List Address}
    (refills : first.Refills second added removed) : first.Evolves second := by
  cases refills with
  | element value stored => exact .vector List.length_set
  | @value entries position entry value stored =>
      refine .dict ?_
      rw [Heap.map_fst_setEntry]

end Payload

namespace Heap

/-- What has become of the objects of a heap. -/
structure Evolves (before after : Heap) : Prop where
  size : before.cells.size ≤ after.cells.size
  payload : ∀ {address later}, address < before.cells.size →
    after.payload? address = some later →
      ∃ earlier, before.payload? address = some earlier ∧ earlier.Evolves later
  type : ∀ {address later}, address < before.cells.size →
    after.payload? address = some later → after.type address = before.type address

variable {heap before middle after : Heap} {address : Address}

theorem Survives.evolves (survives : Survives before after) : before.Evolves after := by
  refine ⟨survives.size, ?_, survives.type⟩
  intro address later old found
  exact ⟨later, survives.payload old found, .refl later⟩

theorem Remains.evolves (remains : Remains before after) : before.Evolves after :=
  remains.survives.evolves

/-- A dict alone gets another entry, once the value for it has been made. -/
theorem createEntry_replaces {dict : Address} (key : Address)
    {entries : List (Address × Address)} (found : heap.payload? dict = some (.dict entries)) :
    (heap.newDefault ((heap.type dict).parameter 1)).2.payload? dict = some (.dict entries) ∧
      (heap.newDefault ((heap.type dict).parameter 1)).2.Replaces
        (heap.createEntry dict key entries) dict
        (.dict (entries ++ [(key, (heap.newDefault ((heap.type dict).parameter 1)).1)])) := by
  obtain ⟨object, alive, same⟩ := payload?_eq_some_iff.mp found
  have still : (heap.newDefault ((heap.type dict).parameter 1)).2.get? dict = some object := by
    rw [newDefault, get?_allocate_of_lt (lt_size_of_get?_eq_some alive)]
    exact alive
  refine ⟨by rw [payload?_of_get? still, same], ?_⟩
  exact @replaces_setPayload _ dict _
    [key, (heap.newDefault ((heap.type dict).parameter 1)).1] [] object still

namespace Evolves

theorem refl (heap : Heap) : heap.Evolves heap :=
  (Remains.refl heap).evolves

theorem trans (first : before.Evolves middle) (second : middle.Evolves after) :
    before.Evolves after := by
  refine ⟨first.size.trans second.size, ?_, ?_⟩
  · intro address later old found
    obtain ⟨between, present, evolves⟩ := second.payload (old.trans_le first.size) found
    obtain ⟨earlier, past, evolves'⟩ := first.payload old present
    exact ⟨earlier, past, evolves'.trans evolves⟩
  · intro address later old found
    have small := old.trans_le first.size
    obtain ⟨between, present, _⟩ := second.payload small found
    exact (second.type small found).trans (first.type old present)

theorem vector (evolves : before.Evolves after) {elements : List Address} {payload : Payload}
    (found : before.payload? address = some (.vector elements))
    (found' : after.payload? address = some payload) :
    ∃ later, payload = .vector later ∧ later.length = elements.length := by
  obtain ⟨earlier, past, changed⟩ := evolves.payload (lt_size_of_payload? found) found'
  cases found.symm.trans past
  cases changed with
  | vector length => exact ⟨_, rfl, length⟩

theorem dict (evolves : before.Evolves after) {entries : List (Address × Address)}
    {payload : Payload} (found : before.payload? address = some (.dict entries))
    (found' : after.payload? address = some payload) :
    ∃ later, payload = .dict later ∧ entries.map Prod.fst <+: later.map Prod.fst := by
  obtain ⟨earlier, past, changed⟩ := evolves.payload (lt_size_of_payload? found) found'
  cases found.symm.trans past
  cases changed with
  | dict grown => exact ⟨_, rfl, grown⟩

/-- One container has another payload. -/
theorem replaces {container : Address} {payload payload' : Payload}
    (replaces : before.Replaces after container payload')
    (found : before.payload? container = some payload) (changed : payload.Evolves payload') :
    before.Evolves after := by
  refine ⟨replaces.cells.ge, ?_, fun _ _ => replaces.type _⟩
  intro address later _ present
  by_cases same : container = address
  · subst same
    cases replaces.written.symm.trans present
    exact ⟨payload, found, changed⟩
  · rw [replaces.spared same] at present
    exact ⟨later, present, .refl later⟩

theorem createEntry {dict key : Address} {entries : List (Address × Address)}
    (found : heap.payload? dict = some (.dict entries)) :
    heap.Evolves (heap.createEntry dict key entries) := by
  have made := (Crafted.newDefault heap ((heap.type dict).parameter 1)).survives.evolves
  obtain ⟨still, written⟩ := createEntry_replaces key found
  refine made.trans (.replaces written still (.dict ?_))
  rw [List.map_append]
  exact List.prefix_append _ _

end Evolves

end Heap

namespace Ledger

variable {licence : Licence}

/-- Every step lets the heap evolve. -/
theorem Step.evolves {before after : Ledger} (step : Step licence before after) :
    before.heap.Evolves after.heap := by
  cases step with
  | craft makes => exact makes.crafted.survives.evolves
  | cache value =>
      exact ((Heap.Crafted.newScalar before.heap value).survives.trans
        (Heap.Remains.retain _ _).survives).evolves
  | duplicate => exact (Heap.Remains.retain _ _).evolves
  | share => exact (Heap.Remains.retain _ _).evolves
  | lower => exact .refl _
  | giveBack => exact (Heap.Remains.release _ _).evolves
  | bind =>
      exact ((Heap.Remains.enterSlot _ _).trans (Heap.Remains.leaveSlots _ _)).evolves
  | push => exact .refl _
  | pop => exact (Heap.Remains.leaveSlots _ _).evolves
  | skip => exact .refl _
  | amend shared found refills given =>
      exact .replaces (Heap.replaces_setPayload found) (Heap.payload?_of_get? found) refills.evolves
  | extend shared payload absent given => exact .createEntry payload
  | keep => exact (Heap.Remains.setPinned _ _ _).evolves
  | take => exact (Heap.Remains.setPinned _ _ _).evolves
  | handBack =>
      exact ((Heap.Remains.retain _ _).trans (Heap.Remains.releaseAll _ _)).evolves

/-- Orderly, with a heap that has evolved from another one. -/
structure EvolvedFrom (origin : Heap) (ledger : Ledger) : Prop where
  orderly : ledger.Orderly
  evolves : origin.Evolves ledger.heap

variable {origin : Heap} {ledger : Ledger}

theorem Orderly.evolved (orderly : ledger.Orderly) : ledger.EvolvedFrom ledger.heap :=
  ⟨orderly, .refl _⟩

theorem EvolvedFrom.step : Lasting licence (EvolvedFrom origin) := by
  rintro before after step ⟨orderly, evolves⟩
  exact ⟨Orderly.step step orderly, evolves.trans step.evolves⟩

end Ledger

end ScriptEngine
