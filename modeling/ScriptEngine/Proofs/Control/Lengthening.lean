import ScriptEngine.Proofs.Control.Tracks
import ScriptEngine.Proofs.Ownership.Lookups
import ScriptEngine.Proofs.Ownership.Putting

/-!
# Walks that fill no slots

A walk whose indices are quiet only adds entries to dicts.  So the slots that it comes
through hold what it finds in them, as long as their containers live.
-/

namespace ScriptEngine

/-- The same payload, or further entries of a dict. -/
inductive Payload.Lengthens : Payload → Payload → Prop where
  | same (payload : Payload) : Lengthens payload payload
  | entries (entries more : List (Address × Address)) :
      Lengthens (.dict entries) (.dict (entries ++ more))

theorem Payload.Lengthens.trans {first second third : Payload} (before : first.Lengthens second)
    (after : second.Lengthens third) : first.Lengthens third := by
  cases before with
  | same => exact after
  | entries entries more =>
      cases after with
      | same => exact .entries entries more
      | entries _ others =>
          rw [List.append_assoc]
          exact .entries entries (more ++ others)

namespace Heap

variable {heap before middle after : Heap}

/-- Objects that live on hold what they held, and dicts can have got more entries. -/
structure Lengthens (before after : Heap) : Prop where
  size : before.cells.size ≤ after.cells.size
  payload : ∀ {address later}, address < before.cells.size →
    after.payload? address = some later →
      ∃ earlier, before.payload? address = some earlier ∧ earlier.Lengthens later

theorem Survives.lengthens (survives : Survives before after) : Lengthens before after :=
  ⟨survives.size, fun old found => ⟨_, survives.payload old found, .same _⟩⟩

namespace Lengthens

theorem trans (first : Lengthens before middle) (second : Lengthens middle after) :
    Lengthens before after := by
  refine ⟨first.size.trans second.size, ?_⟩
  intro address later old found
  obtain ⟨between, present, lengthens⟩ := second.payload (old.trans_le first.size) found
  obtain ⟨earlier, past, lengthens'⟩ := first.payload old present
  exact ⟨earlier, past, lengthens'.trans lengthens⟩

theorem createEntry {dict key : Address} {entries : List (Address × Address)}
    (found : heap.payload? dict = some (.dict entries)) :
    Lengthens heap (heap.createEntry dict key entries) := by
  have but := @SurvivesBut.createEntry heap dict key entries found
  refine ⟨but.size, ?_⟩
  intro address later old present
  by_cases same : dict = address
  · subst same
    cases (payload?_createEntry key found).symm.trans present
    exact ⟨_, found, .entries entries _⟩
  · exact ⟨later, but.payload old same present, .same later⟩

theorem locate {container key : Address} {place : Place}
    (located : heap.locate container key .write = (.ok place, after)) : Lengthens heap after := by
  rcases locate_write_cases located with ⟨_, rfl⟩ | ⟨entries, payload, _, _, rfl⟩
  · exact ((Remains.release heap key).trans (Remains.retain _ container)).survives.lengthens
  · exact (createEntry payload).trans (Remains.retain _ container).survives.lengthens

end Lengthens

end Heap

/-- No slot that lives on has been filled anew. -/
theorem Place.load_of_lengthens {place : Place} {scopes : Scopes} {before after : Heap}
    {value : Address} (loaded : place.load scopes before = .ok value)
    (lengthens : before.Lengthens after)
    (alive : ∀ container ∈ place.handles, ∃ object, after.get? container = some object) :
    place.load scopes after = .ok value := by
  cases place with
  | binding depth name => exact loaded
  | element vector position =>
      obtain ⟨object, living⟩ := alive vector (List.mem_singleton_self vector)
      obtain ⟨later, present⟩ : ∃ payload, after.payload? vector = some payload :=
        ⟨_, Heap.payload?_of_get? living⟩
      simp only [load] at loaded ⊢
      split at loaded
      · rename_i elements found
        obtain ⟨earlier, past, lengthened⟩ :=
          lengthens.payload (Heap.lt_size_of_payload? found) present
        cases found.symm.trans past
        cases lengthened with
        | same => rwa [present]
      · simp at loaded
  | entry dict position =>
      obtain ⟨object, living⟩ := alive dict (List.mem_singleton_self dict)
      obtain ⟨later, present⟩ : ∃ payload, after.payload? dict = some payload :=
        ⟨_, Heap.payload?_of_get? living⟩
      simp only [load] at loaded ⊢
      split at loaded
      · rename_i entries found
        obtain ⟨earlier, past, lengthened⟩ :=
          lengthens.payload (Heap.lt_size_of_payload? found) present
        cases found.symm.trans past
        cases lengthened with
        | same => rwa [present]
        | entries _ more =>
            split at loaded
            · rename_i pair stored
              have inside := (List.getElem?_eq_some_iff.mp stored).1
              rw [present]
              simp only [List.getElem?_append_left inside, stored]
              exact loaded
            · simp at loaded
      · simp at loaded

namespace Evaluation

variable {setup : Setup} {place last : Place} {indices : List ExpressionId} {start reached : State}
  {strides : List Stride}

theorem Tracks.lengthens (tracks : Tracks setup place indices start strides last reached)
    (quiet : ∀ index ∈ indices, setup.program.Quiet index) :
    start.heap.Lengthens reached.heap ∧ reached.scopes = start.scopes := by
  induction tracks with
  | nil place state => exact ⟨(Heap.Remains.refl _).survives.lengthens, rfl⟩
  | @cons place next last container key index others start keyed reached heap strides fuel loaded
      valued located _ induction =>
      obtain ⟨lengthens, scopes⟩ := induction fun other member =>
        quiet other (List.mem_cons_of_mem _ member)
      have gentle := (Nested.gentle (quiet index List.mem_cons_self) fuel).1.of_value valued
      have retained := (Heap.Remains.retain start.heap container).survives.lengthens
      have released := ((Heap.Remains.releaseAll heap [container]).trans
        (.releaseAll _ place.handles)).survives.lengthens
      exact ⟨((((retained.trans gentle.heap.survives.lengthens).trans (.locate located)).trans
        released).trans lengthens), scopes.trans gentle.scopes⟩

/-- The slots that a quiet walk comes through hold what it finds in them, as long as nothing
else happens. -/
theorem Tracks.still (tracks : Tracks setup place indices start strides last reached)
    (quiet : ∀ index ∈ indices, setup.program.Quiet index) {later : Heap}
    (lengthens : reached.heap.Lengthens later) {stride : Stride} (member : stride ∈ strides)
    (alive : ∀ container ∈ stride.place.handles, ∃ object, later.get? container = some object) :
    stride.place.load reached.scopes later = .ok stride.container := by
  induction tracks with
  | nil place state => simp at member
  | @cons place next last container key index others start keyed reached heap strides fuel loaded
      valued located rest induction =>
      have quiet' : ∀ other ∈ others, setup.program.Quiet other :=
        fun other member => quiet other (List.mem_cons_of_mem _ member)
      rcases List.mem_cons.mp member with rfl | inside
      · obtain ⟨lengthens', scopes⟩ :=
          (Tracks.cons fuel loaded valued located rest).lengthens quiet
        rw [scopes]
        exact Place.load_of_lengthens loaded (lengthens'.trans lengthens) alive
      · exact induction quiet' lengthens inside

end Evaluation

end ScriptEngine
