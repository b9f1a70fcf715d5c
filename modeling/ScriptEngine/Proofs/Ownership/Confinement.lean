import ScriptEngine.Proofs.Ownership.Ways
import ScriptEngine.Proofs.Ownership.Lookups

/-!
# Changes on the ways

Where only containers on the ways from a root are changed, their keys have the contents
that they had, and so has whatever does not lead to one of these containers.  A key leads
to the slot that it led to.
-/

namespace ScriptEngine

namespace Heap

variable {heap before middle after : Heap} {root container key address : Address}
  {slots handles slots' handles' : Multiset Address}

/-- Nothing but containers on the ways is changed, and they keep their slots. -/
structure Confined (root : Address) (before after : Heap) : Prop where
  evolves : before.Evolves after
  spared : ∀ {address payload}, address < before.cells.size → ¬ before.Stop root address →
    after.payload? address = some payload → before.payload? address = some payload

/-- Besides, the ways lead to no other objects that were there. -/
structure Tends (root : Address) (before after : Heap) : Prop extends Confined root before after where
  stops : ∀ {address}, address < before.cells.size → after.Stop root address →
    before.Stop root address

theorem Remains.tends (remains : Remains before after) : Tends root before after :=
  ⟨⟨remains.evolves, fun _ _ found => remains.payload found⟩, fun _ stop => remains.stop stop⟩

theorem Tends.createEntry {entries : List (Address × Address)} {dict : Address}
    (found : heap.payload? dict = some (.dict entries)) (way : heap.Way root dict) :
    Tends root heap (heap.createEntry dict key entries) := by
  refine ⟨⟨.createEntry found, ?_⟩, ?_⟩
  · intro address payload old apart present
    refine (SurvivesBut.createEntry found).payload old ?_ present
    rintro rfl
    exact apart ⟨way, _, found, trivial⟩
  · intro address old stop
    exact (stop_createEntry found stop).resolve_right (Nat.ne_of_lt old)

theorem Tends.confined (first : Tends root before middle) (second : Confined root middle after) :
    Confined root before after := by
  refine ⟨first.evolves.trans second.evolves, ?_⟩
  intro address payload old apart found
  have small := old.trans_le first.evolves.size
  exact first.spared old apart (second.spared small (fun stop => apart (first.stops old stop)) found)

theorem Tends.trans (first : Tends root before middle) (second : Tends root middle after) :
    Tends root before after := by
  refine ⟨first.confined second.toConfined, ?_⟩
  intro address old stop
  exact first.stops old (second.stops (old.trans_le first.evolves.size) stop)

namespace Confined

variable (confined : Confined root before after) (balanced : before.Balanced slots handles)
  (balanced' : after.Balanced slots' handles')
include confined balanced balanced'

/-- What leads to no container on the ways is as it was, if it is still there. -/
theorem alike (aloof : before.Aloof root address) (old : address < before.cells.size)
    (alive : after.payload? address ≠ none) : Alike before after address := by
  have kept : ∀ {other}, before.Reaches {address} other →
      other < before.cells.size ∧ ∃ payload, after.payload? other = some payload ∧
        before.payload? other = some payload := by
    intro other reaches
    induction reaches with
    | root member =>
        rw [Multiset.mem_singleton.mp member]
        obtain ⟨payload, found⟩ := Option.ne_none_iff_exists'.mp alive
        have apart := fun stop => aloof address stop (.root (Multiset.mem_singleton_self address))
        exact ⟨old, payload, found, confined.spared old apart found⟩
    | @slot holder child reaches holds induction =>
        obtain ⟨_, payload, later, earlier⟩ := induction
        have stored : child ∈ before.stored := mem_stored_iff_holds.mpr ⟨holder, holds⟩
        have small : child < before.cells.size := balanced.lt_size (by simp [stored])
        obtain ⟨content, found, member⟩ := holds
        cases earlier.symm.trans found
        obtain ⟨payload, present⟩ :=
          Option.ne_none_iff_exists'.mp (balanced'.closed ⟨_, later, member⟩)
        have apart := fun stop => aloof _ stop (.slot reaches ⟨_, found, member⟩)
        exact ⟨small, payload, present, confined.spared small apart present⟩
  intro other reaches
  obtain ⟨small, payload, later, earlier⟩ := kept reaches
  exact ⟨later.trans earlier.symm, confined.evolves.type small later⟩

section

variable (branches : before.Branches root) (way : before.Way root container)
  (alive : after.payload? container ≠ none)
include branches way alive

theorem alike_key (member : key ∈ before.keys container) : Alike before after key := by
  have held := holds_of_mem_keys member
  obtain ⟨entries, found, inside⟩ := exists_entries_of_mem_keys member
  obtain ⟨payload, present⟩ := Option.ne_none_iff_exists'.mp alive
  obtain ⟨later, rfl, grown⟩ := confined.evolves.dict found present
  apply confined.alike balanced balanced' (branches.aloof_of_key way member)
  · exact balanced.lt_size (by simp [mem_stored_iff_holds.mpr ⟨container, held⟩])
  · apply balanced'.closed
    exact holds_of_mem_keys (by rw [keys_of_payload? present]; exact grown.subset inside)

theorem tree_eq (member : key ∈ before.keys container) : after.tree key = before.tree key :=
  (confined.alike_key balanced balanced' branches way alive member).tree_of_ends le_rfl
    confined.evolves.size (branches.ends way member)

theorem equals_eq (alike : Alike before after address) (member : key ∈ before.keys container) :
    after.equals key address = before.equals key address :=
  (confined.alike_key balanced balanced' branches way alive member).equals alike

/-- A slot that contents lead to is led to as before. -/
theorem spotAt {tree : Tree} {spot : Spot} (found : before.spotAt container tree = .ok spot)
    (present : spot ≠ .absent) : after.spotAt container tree = .ok spot :=
  spotAt_of_keys confined.evolves alive
    (fun _ member => confined.tree_eq balanced balanced' branches way alive member) found present

/-- A key that is as it was leads where it led, unless there is a new entry for it. -/
theorem spot_eq (old : container < before.cells.size) (alike : Alike before after address)
    (still : before.spot container address = .ok .absent →
      ∀ key ∈ after.keys container, key ∉ before.keys container →
        after.equals key address = false) :
    after.spot container address = before.spot container address := by
  obtain ⟨payload, present⟩ := Option.ne_none_iff_exists'.mp alive
  obtain ⟨earlier, past, evolved⟩ := confined.evolves.payload old present
  have same : ∀ {key}, key ∈ before.keys container →
      after.equals key address = before.equals key address :=
    confined.equals_eq balanced balanced' branches way alive alike
  cases evolved with
  | scalar value =>
      unfold spot
      simp only [past, present, kind]
  | vector length =>
      unfold spot
      simp only [past, present, alike.payload, length, kind]
  | @dict entries later grown =>
      rw [keys_of_payload? past] at still same
      rw [keys_of_payload? present] at still
      obtain ⟨more, added⟩ := grown
      have found : after.findEntry? later address = before.findEntry? entries address := by
        rw [findEntry?_eq_keys, findEntry?_eq_keys, ← added, List.findIdx?_append,
          findIdx?_congr fun key member => same member]
        cases missing : (entries.map Prod.fst).findIdx? (before.equals · address) with
        | some position => rfl
        | none =>
            have absent : before.spot container address = .ok .absent := by
              unfold spot
              simp only [past, findEntry?_eq_keys, missing]
            have none : more.findIdx? (after.equals · address) = none := by
              rw [List.findIdx?_eq_none_iff]
              intro key member
              by_cases older : key ∈ entries.map Prod.fst
              · rw [same older]
                exact List.findIdx?_eq_none_iff.mp missing key older
              · refine still absent key ?_ older
                rw [← added]
                exact List.mem_append_right _ member
            rw [none]
            rfl
      unfold spot
      simp only [past, present, found]

end

end Confined

end Heap

end ScriptEngine
