import ScriptEngine.Proofs.Abreast.Making
import ScriptEngine.Proofs.Ownership.Accesses
import ScriptEngine.Proofs.Ownership.Entries
import ScriptEngine.Proofs.Ownership.Updates

/-!
# Two ways to make a dict

A dict made of pairs in one go has the entries that a dict gets to which the pairs are
assigned one after another: each key that is equal to none before it, with the last value that
comes with an equal key.  Keys and values that are superseded leave their slots.  If nothing
else refers to such an object it is gone, and what it held has left its slots as well.
-/

namespace ScriptEngine

namespace Heap

variable {heap before after start : Heap} {dict key value other : Address}
  {entries pairs : List (Address × Address)} {pair entry : Address × Address}
  {slots handles slots' handles' : Multiset Address}

/-! ## Merging pairs into entries -/

/-- Entries with one more pair. -/
def merge (heap : Heap) (entries : List (Address × Address)) (pair : Address × Address) :
    List (Address × Address) :=
  match heap.findEntry? entries pair.1 with
  | some position => setEntry entries position pair.2
  | none => entries ++ [pair]

/-- The value of the last of the pairs whose keys are equal to one. -/
def latest (heap : Heap) (pairs : List (Address × Address)) (key : Address) : Option Address :=
  (pairs.reverse.find? fun pair => heap.equals pair.1 key).map Prod.snd

/-- The entries are those of the first of equal keys, with the values of the last. -/
structure Collects (heap : Heap) (pairs entries : List (Address × Address)) : Prop where
  keys : entries.map Prod.fst = heap.firsts (pairs.map Prod.fst)
  values : ∀ entry ∈ entries, heap.latest pairs entry.1 = some entry.2

theorem latest_append (heap : Heap) (pairs : List (Address × Address)) (pair : Address × Address)
    (key : Address) :
    heap.latest (pairs ++ [pair]) key =
      if heap.equals pair.1 key then some pair.2 else heap.latest pairs key := by
  cases same : heap.equals pair.1 key <;> simp [latest, same]

theorem latest_congr (same : heap.equals key other = true) (pairs : List (Address × Address)) :
    heap.latest pairs key = heap.latest pairs other := by
  simp only [latest, equals_congr same]

/-- No two entries have equal keys. -/
theorem Collects.eq_of_equals (collects : heap.Collects pairs entries) {first second : Nat}
    (inside : first < entries.length) (inside' : second < entries.length)
    (same : heap.equals entries[first].1 entries[second].1 = true) : first = second := by
  have distinct := heap.firsts_pairwise (pairs.map Prod.fst)
  rw [← collects.keys, List.pairwise_map, List.pairwise_iff_getElem] at distinct
  rcases Nat.lt_trichotomy first second with less | equal | less
  · exact absurd same (by simp [distinct first second inside inside' less])
  · exact equal
  · rw [heap.equals_comm] at same
    exact absurd same (by simp [distinct second first inside' inside less])

theorem Collects.merge (collects : heap.Collects pairs entries) (pair : Address × Address) :
    heap.Collects (pairs ++ [pair]) (heap.merge entries pair) := by
  have found : (pairs.map Prod.fst).any (heap.equals · pair.1) =
      (entries.map Prod.fst).any (heap.equals · pair.1) := by
    rw [collects.keys, any_firsts]
  unfold Heap.merge
  cases there : heap.findEntry? entries pair.1 with
  | none =>
      rw [findEntry?_eq_keys, List.findIdx?_eq_none_iff] at there
      have new : (pairs.map Prod.fst).any (heap.equals · pair.1) = false :=
        found.trans (by simpa using there)
      refine ⟨?_, ?_⟩
      · simp only [List.map_append, List.map_singleton, firsts_append, new, collects.keys]
        rfl
      · intro entry member
        rw [latest_append]
        rcases List.mem_append.mp member with member | member
        · rw [heap.equals_comm, there entry.1 (List.mem_map_of_mem member)]
          exact collects.values entry member
        · rw [List.mem_singleton.mp member, heap.equals_self]
          rfl
  | some position =>
      obtain ⟨inside, same, _⟩ := List.findIdx?_eq_some_iff_getElem.mp there
      have known : (pairs.map Prod.fst).any (heap.equals · pair.1) = true :=
        found.trans (List.any_eq_true.mpr ⟨_, List.mem_map_of_mem (List.getElem_mem inside), same⟩)
      refine ⟨?_, ?_⟩
      · simp only [map_fst_setEntry, List.map_append, List.map_singleton, firsts_append, known,
          collects.keys, if_pos, List.append_nil]
      · intro entry member
        obtain ⟨index, short, rfl⟩ := List.getElem_of_mem member
        have small : index < entries.length := by simpa [setEntry] using short
        simp only [setEntry, List.getElem_modify]
        rw [latest_append]
        by_cases here : position = index
        · subst here
          simp [(heap.equals_comm pair.1 _).trans same]
        · have apart : heap.equals pair.1 entries[index].1 = false := by
            rw [Bool.eq_false_iff]
            intro equal
            exact here (collects.eq_of_equals inside small (equals_trans same equal))
          simp [here, apart, collects.values _ (List.getElem_mem small)]

theorem Collects.foldl (heap : Heap) (pairs : List (Address × Address)) :
    heap.Collects pairs (pairs.foldl heap.merge []) := by
  induction pairs using List.reverseRecOn with
  | nil => exact ⟨rfl, by simp⟩
  | append_singleton pairs pair collects =>
      rw [List.foldl_append]
      exact collects.merge pair

/-- A key that is listed leads to the last value that comes with an equal key. -/
theorem Collects.exists_entry (collects : heap.Collects pairs entries)
    (member : key ∈ pairs.map Prod.fst) :
    ∃ position entry, heap.findEntry? entries key = some position ∧
      entries[position]? = some entry ∧ heap.latest pairs key = some entry.2 := by
  obtain ⟨first, inside, same⟩ := @exists_mem_firsts heap _ _ member
  rw [← collects.keys] at inside
  obtain ⟨position, found⟩ : ∃ position, heap.findEntry? entries key = some position := by
    rw [← Option.isSome_iff_exists, findEntry?_eq_keys, List.findIdx?_isSome, List.any_eq_true]
    exact ⟨first, inside, same⟩
  obtain ⟨short, equal, _⟩ := List.findIdx?_eq_some_iff_getElem.mp found
  refine ⟨position, entries[position], found, List.getElem?_eq_getElem short, ?_⟩
  rw [← latest_congr equal, collects.values _ (List.getElem_mem short)]

/-- Merging depends on how the key compares with those that are there. -/
theorem merge_congr (same : ∀ other ∈ entries.map Prod.fst,
      after.equals other pair.1 = before.equals other pair.1) :
    after.merge entries pair = before.merge entries pair := by
  rw [Heap.merge, Heap.merge, findEntry?_eq_keys, findEntry?_eq_keys, findIdx?_congr same]

/-- What survives compares as before. -/
theorem Survives.equals_eq (survives : Survives before after)
    (balanced : before.Balanced slots handles) (balanced' : after.Balanced slots' handles')
    (old : key < before.cells.size ∧ other < before.cells.size)
    (alive : after.payload? key ≠ none ∧ after.payload? other ≠ none) :
    after.equals key other = before.equals key other :=
  (survives.alike balanced balanced' old.1 alive.1).equals
    (survives.alike balanced balanced' old.2 alive.2)

/-! ## In one go -/

theorem insertPair_fst (heap : Heap) (entries : List (Address × Address)) (key value : Address) :
    (heap.insertPair entries key value).1 = heap.merge entries (key, value) := by
  unfold insertPair merge
  split <;> simp_all

theorem Balanced.insertPair
    (balanced : heap.Balanced ((Payload.dict entries).children + slots) (key ::ₘ value ::ₘ handles)) :
    (heap.insertPair entries key value).2.Balanced
      ((Payload.dict (heap.insertPair entries key value).1).children + slots) handles := by
  have started : heap.Balanced ((Payload.dict entries).children + 0 + slots)
      (key ::ₘ value ::ₘ 0 + handles) := by
    simpa using balanced
  simpa using (Balanced.crafting slots handles).insertPair started

theorem mem_keys_merge (member : other ∈ (heap.merge entries pair).map Prod.fst) :
    other ∈ entries.map Prod.fst ∨ other = pair.1 := by
  unfold merge at member
  split at member
  · rw [map_fst_setEntry] at member
    exact Or.inl member
  · simpa using member

theorem mem_values_merge (member : entry ∈ heap.merge entries pair) :
    (∃ earlier ∈ entries, earlier.2 = entry.2) ∨ pair.2 = entry.2 := by
  unfold merge at member
  split at member
  · obtain ⟨index, short, rfl⟩ := List.getElem_of_mem member
    have small : index < entries.length := by simpa [setEntry] using short
    simp only [setEntry, List.getElem_modify]
    split
    · exact Or.inr rfl
    · exact Or.inl ⟨_, List.getElem_mem small, rfl⟩
  · rcases List.mem_append.mp member with member | member
    · exact Or.inl ⟨entry, member, rfl⟩
    · exact Or.inr (by rw [List.mem_singleton.mp member])

/-- Keys that were there at the start compare as they did then. -/
theorem merge_eq (balanced : start.Balanced slots handles) (survives : Survives start heap)
    (balanced' : heap.Balanced slots' handles') (alive : heap.payload? pair.1 ≠ none)
    (listed : ∀ other ∈ entries.map Prod.fst, heap.payload? other ≠ none)
    (old : pair.1 < start.cells.size)
    (small : ∀ other ∈ entries.map Prod.fst, other < start.cells.size) :
    heap.merge entries pair = start.merge entries pair :=
  merge_congr fun other member => survives.equals_eq balanced balanced' ⟨small other member, old⟩
    ⟨listed other member, alive⟩

theorem insertPairs_cons (heap : Heap) (entries : List (Address × Address)) (key value : Address)
    (others : List (Address × Address)) :
    heap.insertPairs entries ((key, value) :: others) =
      (heap.insertPair entries key value).2.insertPairs (heap.insertPair entries key value).1 others :=
  rfl

theorem insertPairs_fst (balanced : start.Balanced slots handles) (survives : Survives start heap)
    (balanced' : heap.Balanced ((Payload.dict entries).children + slots')
      ((Payload.dict pairs).children + handles'))
    (old : ∀ pair ∈ pairs, pair.1 < start.cells.size)
    (small : ∀ other ∈ entries.map Prod.fst, other < start.cells.size) :
    (heap.insertPairs entries pairs).1 = pairs.foldl start.merge entries := by
  induction pairs generalizing heap entries with
  | nil => rfl
  | cons pair others induction =>
      obtain ⟨key, value⟩ := pair
      have single : heap.Balanced ((Payload.dict entries).children + slots')
          (key ::ₘ value ::ₘ ((Payload.dict others).children + handles')) := by
        simpa [Payload.children, ← Multiset.cons_coe] using balanced'
      have merged : (heap.insertPair entries key value).1 = start.merge entries (key, value) := by
        rw [insertPair_fst]
        apply merge_eq balanced survives single (single.payload?_ne_none (by simp)) ?_
          (old _ List.mem_cons_self) small
        intro other member
        exact single.payload?_ne_none (by simp [mem_children_of_mem_keys member])
      have inserted := single.insertPair
      rw [insertPairs_cons, List.foldl_cons, ← merged]
      refine induction (survives.trans (Remains.insertPair heap entries key value).survives) inserted
        (fun pair member => old pair (List.mem_cons_of_mem _ member)) ?_
      intro other member
      rw [merged] at member
      rcases mem_keys_merge member with member | rfl
      · exact small other member
      · exact old _ List.mem_cons_self

/-! ## Pair by pair -/

/-- Locate a key in a dict and store a value there, and give back what was there. -/
def putPair (heap : Heap) (dict : Address) (pair : Address × Address) : Heap :=
  match heap.locate dict pair.1 .write with
  | (.error _, heap) => heap.release pair.2
  | (.ok place, heap) =>
      match place.store {} heap pair.2 with
      | (.error _, _, heap) => (heap.release pair.2).releaseAll place.handles
      | (.ok previous, _, heap) => (heap.release previous).releaseAll place.handles

def putPairs (heap : Heap) (dict : Address) (pairs : List (Address × Address)) : Heap :=
  pairs.foldl (·.putPair dict) heap

theorem SurvivesBut.of_young (but : SurvivesBut dict before after)
    (young : before.cells.size ≤ dict) : Survives before after where
  size := but.size
  payload old found := but.payload old (old.trans_le young).ne' found
  type old found := but.type old found

theorem Replaces.but {payload : Payload} (replaces : before.Replaces after dict payload)
    (alive : before.payload? dict ≠ none) : SurvivesBut dict before after where
  size := replaces.cells.ge
  payload _ different found := (replaces.spared different).symm.trans found
  type _ _ := replaces.type _
  gone {address} _ absent := by
    have different : dict ≠ address := by
      rintro rfl
      exact alive absent
    exact (replaces.spared different).trans absent

/-- The value of an entry is replaced. -/
theorem fill {position : Nat} (found : heap.payload? dict = some (.dict entries))
    (there : entries[position]? = some entry)
    (balanced : heap.Balanced slots (value ::ₘ dict ::ₘ handles)) (held : dict ∈ slots + handles) :
    ∃ last, (Place.entry dict position).store {} heap value = (.ok entry.2, {}, last) ∧
      ((last.release entry.2).releaseAll [dict]).Balanced slots handles ∧
      SurvivesBut dict heap ((last.release entry.2).releaseAll [dict]) ∧
      ((last.release entry.2).releaseAll [dict]).payload? dict =
        some (.dict (setEntry entries position value)) := by
  have loaded : (Place.entry dict position).load {} heap = .ok entry.2 := by
    simp only [Place.load, found, there]
  obtain ⟨last, stores, stored⟩ := stores_of_load rfl loaded balanced
  have released : (last.release entry.2).Balanced slots ([dict] + handles) := stored.release
  have settled := released.releaseAll
  have remains := (Remains.release last entry.2).trans
    (Remains.releaseAll (last.release entry.2) [dict])
  have written : last.payload? dict = some (.dict (setEntry entries position value)) := by
    have same := Place.store_of_load loaded value
    rw [stores.store] at same
    simp only [Place.point, payload?_enterSlot, found, Prod.mk.injEq, true_and] at same
    rw [same, payload?_leaveSlot]
    exact payload?_setPayload_self ((payload?_enterSlot heap value dict).trans found) _
  obtain ⟨payload, payload', found', _, replaces⟩ := stores.replaces
  refine ⟨last, stores.store, settled, ?_, ?_⟩
  · exact (replaces.but (by simp [found])).survives remains.survives
  · rw [remains.survives.payload?_eq (lt_size_of_payload? written)
      (settled.payload?_ne_none held), written]

theorem setEntry_concat (entries : List (Address × Address)) (entry : Address × Address)
    (value : Address) :
    setEntry (entries ++ [entry]) entries.length value = entries ++ [(entry.1, value)] := by
  induction entries with
  | nil => rfl
  | cons first entries induction =>
      rw [setEntry] at induction ⊢
      simpa using induction

theorem putPair_eq {last : Heap} {place : Place} {previous : Address} {scopes : Scopes}
    (located : heap.locate dict pair.1 .write = (.ok place, after))
    (stored : place.store {} after pair.2 = (.ok previous, scopes, last)) :
    heap.putPair dict pair = (last.release previous).releaseAll place.handles := by
  simp only [putPair, located, stored]

/-- A dict has the entries of pairs that have been merged. -/
structure Merged (start heap : Heap) (dict : Address) (entries : List (Address × Address)) :
    Prop where
  but : SurvivesBut dict start heap
  payload : heap.payload? dict = some (.dict entries)
  old : ∀ other ∈ entries.map Prod.fst, other < start.cells.size

theorem Merged.putPair (merged : start.Merged heap dict entries)
    (balanced : start.Balanced slots handles) (young : start.cells.size ≤ dict)
    (balanced' : heap.Balanced slots' (pair.1 ::ₘ pair.2 ::ₘ handles'))
    (held : dict ∈ slots' + handles') (old : pair.1 < start.cells.size) :
    start.Merged (heap.putPair dict pair) dict (start.merge entries pair) ∧
      (heap.putPair dict pair).Balanced slots' handles' := by
  have known := merged.payload
  have same : heap.merge entries pair = start.merge entries pair := by
    apply merge_eq balanced (merged.but.of_young young) balanced'
      (balanced'.payload?_ne_none (by simp)) _ old merged.old
    intro other member
    exact balanced'.closed ⟨_, known, mem_children_of_mem_keys member⟩
  have small : ∀ other ∈ (start.merge entries pair).map Prod.fst, other < start.cells.size := by
    intro other member
    rcases mem_keys_merge member with member | rfl
    · exact merged.old other member
    · exact old
  cases there : heap.findEntry? entries pair.1 with
  | some position =>
      have inside := (List.findIdx?_eq_some_iff_getElem.mp there).1
      have released := balanced'.release
      have shared := released.retain (mem_of_held (mem_held_cons held pair.2) _)
      have found : ((heap.release pair.1).retain dict).payload? dict = some (.dict entries) := by
        rw [payload?_retain, (Remains.release heap pair.1).survives.payload?_eq
          (lt_size_of_payload? known) (released.payload?_ne_none (mem_held_cons held pair.2)), known]
      rw [Multiset.cons_swap] at shared
      obtain ⟨last, stored, settled, but, written⟩ :=
        fill found (List.getElem?_eq_getElem inside) shared held
      rw [putPair_eq (locate_of_present known there .write) stored]
      have result : setEntry entries position pair.2 = start.merge entries pair := by
        rw [← same, merge, there]
      refine ⟨⟨?_, written.trans (by rw [result]), small⟩, settled⟩
      exact ((merged.but.survives (Remains.release heap pair.1).survives).survives
        (Remains.retain _ dict).survives).trans but
  | none =>
      have created := balanced'.createEntry known
      have shared := created.retain (mem_of_held (mem_held_cons held pair.2) _)
      have found : ((heap.createEntry dict pair.1 entries).retain dict).payload? dict =
          some (.dict (entries ++ [(pair.1, heap.cells.size)])) :=
        (payload?_retain _ dict dict).trans (payload?_createEntry pair.1 known)
      rw [Multiset.cons_swap] at shared
      obtain ⟨last, stored, settled, but, written⟩ :=
        fill found (List.getElem?_concat_length ..) shared held
      rw [putPair_eq (locate_of_missing known there) stored]
      have result : setEntry (entries ++ [(pair.1, heap.cells.size)]) entries.length pair.2 =
          start.merge entries pair := by
        rw [← same, merge, there, setEntry_concat]
      refine ⟨⟨?_, written.trans (by rw [result]), small⟩, settled⟩
      exact ((merged.but.trans (.createEntry known)).survives
        (Remains.retain _ dict).survives).trans but

theorem Merged.putPairs (merged : start.Merged heap dict entries)
    (balanced : start.Balanced slots handles) (young : start.cells.size ≤ dict)
    (balanced' : heap.Balanced slots' ((Payload.dict pairs).children + handles'))
    (held : dict ∈ slots' + handles') (old : ∀ pair ∈ pairs, pair.1 < start.cells.size) :
    start.Merged (heap.putPairs dict pairs) dict (pairs.foldl start.merge entries) := by
  induction pairs generalizing heap entries with
  | nil => exact merged
  | cons pair others induction =>
      have single : heap.Balanced slots'
          (pair.1 ::ₘ pair.2 ::ₘ ((Payload.dict others).children + handles')) := by
        simpa [Payload.children, ← Multiset.cons_coe] using balanced'
      obtain ⟨next, settled⟩ := merged.putPair balanced young single
        (by rw [add_left_comm]; exact Multiset.mem_add.mpr (Or.inr held)) (old pair List.mem_cons_self)
      exact induction next settled fun other member => old other (List.mem_cons_of_mem _ member)

/-! ## Slots that are left -/

/-- What was in slots of objects that are gone. -/
def lost (before after : Heap) : Multiset Address :=
  ((List.range before.cells.size).filter fun address => (after.payload? address).isNone).flatMap
    fun address => cellChildren (before.get? address)

theorem cellChildren_get? (heap : Heap) (address : Address) :
    cellChildren (heap.get? address) = ((heap.payload? address).map Payload.children).getD [] := by
  unfold payload?
  cases heap.get? address <;> rfl

theorem Remains.stored_add_lost (remains : Remains before after) :
    after.stored + before.lost after = before.stored := by
  have split : ∀ addresses : List Address,
      (↑(addresses.flatMap fun address => cellChildren (after.get? address)) +
        ↑((addresses.filter fun address => (after.payload? address).isNone).flatMap
          fun address => cellChildren (before.get? address)) : Multiset Address) =
        ↑(addresses.flatMap fun address => cellChildren (before.get? address)) := by
    intro addresses
    induction addresses with
    | nil => rfl
    | cons address addresses induction =>
        simp only [List.flatMap_cons, ← Multiset.coe_add] at induction ⊢
        rw [← induction]
        cases found : after.payload? address with
        | none =>
            rw [List.filter_cons_of_pos (by simp [found]), cellChildren_get? after, found]
            simp [← Multiset.coe_add, add_left_comm]
        | some payload =>
            rw [List.filter_cons_of_neg (by simp [found]), cellChildren_get? after, found,
              cellChildren_get? before, remains.payload found, add_assoc]
  have whole := split (List.range before.cells.size)
  rw [Heap.stored, Heap.stored, toList_cells, toList_cells, List.flatMap_map, List.flatMap_map, remains.cells]
  exact whole

theorem lost_eq_zero (alive : ∀ address, after.payload? address = before.payload? address) :
    before.lost after = 0 := by
  rw [lost, List.flatMap_eq_nil_iff.mpr, Multiset.coe_nil]
  intro address member
  obtain ⟨_, gone⟩ := List.mem_filter.mp member
  rw [alive, Option.isNone_iff_eq_none] at gone
  rw [cellChildren_get?, gone]
  rfl

/-- What else refers to an object keeps it. -/
theorem payload?_release_of_held (balanced : heap.Balanced slots (key ::ₘ handles))
    (held : key ∈ slots + handles) (address : Address) :
    (heap.release key).payload? address = heap.payload? address := by
  obtain ⟨object, alive⟩ := balanced.alive (by simp : key ∈ heap.stored + slots + key ::ₘ handles)
  have several : 1 < object.handles := by
    have counted := Multiset.one_le_count_iff_mem.mpr held
    rw [balanced.handled alive, Multiset.add_cons, Multiset.count_cons_self, add_assoc,
      Multiset.count_add]
    omega
  rw [release, releaseAll_of_several alive several, releaseAll_nil, dropHandle]
  apply payload?_modify
  exact fun _ => rfl

theorem payload?_insertPair_of_held
    (balanced : heap.Balanced ((Payload.dict entries).children + slots) (key ::ₘ value ::ₘ handles))
    (held : key ∈ slots + handles)
    (listed : ∀ entry ∈ entries, entry.2 ∈ slots + handles) (address : Address) :
    (heap.insertPair entries key value).2.payload? address = heap.payload? address := by
  unfold insertPair
  split
  · rename_i position found
    have inside := (List.findIdx?_eq_some_iff_getElem.mp found).1
    have there := List.getElem?_eq_getElem inside
    rw [Multiset.cons_swap] at balanced
    have entered := balanced.enterSlot
    rw [← Multiset.cons_add, ← children_setEntry there, Multiset.cons_add] at entered
    have left := entered.leaveSlot
    have more : ∀ {other}, other ∈ slots + handles → other ∈
        (↑(Payload.dict (setEntry entries position value)).children + slots : Multiset Address) +
          handles := by
      intro other member
      rw [add_assoc]
      exact Multiset.mem_add.mpr (Or.inr member)
    have dropped := payload?_release_of_held left
      (mem_held_cons (more (listed _ (List.getElem_mem inside))) key) address
    have released := payload?_release_of_held left.release (more held) address
    simp only [there]
    exact released.trans (dropped.trans ((payload?_leaveSlot _ _ address).trans
      (payload?_enterSlot heap value address)))
  · simp

theorem payload?_insertPairs_of_held
    (balanced : heap.Balanced ((Payload.dict entries).children + slots)
      ((Payload.dict pairs).children + handles))
    (held : ∀ pair ∈ pairs, pair.1 ∈ slots + handles ∧ pair.2 ∈ slots + handles)
    (listed : ∀ entry ∈ entries, entry.2 ∈ slots + handles) (address : Address) :
    (heap.insertPairs entries pairs).2.payload? address = heap.payload? address := by
  induction pairs generalizing heap entries with
  | nil => rfl
  | cons pair others induction =>
      obtain ⟨key, value⟩ := pair
      have single : heap.Balanced ((Payload.dict entries).children + slots)
          (key ::ₘ value ::ₘ ((Payload.dict others).children + handles)) := by
        simpa [Payload.children, ← Multiset.cons_coe] using balanced
      have more : ∀ {other}, other ∈ slots + handles →
          other ∈ slots + ((Payload.dict others).children + handles) := by
        intro other member
        rw [add_left_comm]
        exact Multiset.mem_add.mpr (Or.inr member)
      rw [insertPairs_cons]
      refine (induction single.insertPair (fun pair member => held pair (List.mem_cons_of_mem _ member))
        ?_).trans (payload?_insertPair_of_held single (more (held _ List.mem_cons_self).1)
          (fun entry member => more (listed entry member)) address)
      intro entry member
      rw [insertPair_fst] at member
      rcases mem_values_merge member with ⟨earlier, inside, same⟩ | same
      · exact same ▸ listed earlier inside
      · exact same ▸ (held _ List.mem_cons_self).2

/-! ## Both ways compared -/

theorem newDict_eq (heap : Heap) (keyType valueType : StaticType)
    (pairs : List (Address × Address)) :
    heap.newDict keyType valueType pairs =
      (heap.insertPairs [] pairs).2.allocate (.dict keyType valueType)
        (.dict (heap.insertPairs [] pairs).1) := rfl

theorem Balanced.newDict
    (balanced : heap.Balanced slots ((Payload.dict pairs).children + handles))
    (keyType valueType : StaticType) :
    (heap.newDict keyType valueType pairs).2.Balanced slots
      ((heap.newDict keyType valueType pairs).1 ::ₘ handles) := by
  have started : heap.Balanced (0 + slots) ((Payload.dict pairs).children + 0 + handles) := by
    simpa using balanced
  simpa using (Balanced.crafting slots handles).newDict started keyType valueType

section

variable (balanced : heap.Balanced slots ((Payload.dict pairs).children + handles))
  (keyType valueType : StaticType)

include balanced

theorem lt_size_of_listed {address : Address} (listed : address ∈ (Payload.dict pairs).children) :
    address < heap.cells.size :=
  balanced.lt_size (by simp [listed])

theorem insertPairs_eq : (heap.insertPairs [] pairs).1 = pairs.foldl heap.merge [] :=
  insertPairs_fst balanced (Survives.refl heap) (by simpa [Payload.children] using balanced)
    (fun _ member => lt_size_of_listed balanced
      (mem_children_of_mem_keys (List.mem_map_of_mem member)))
    (by simp)

/-- Assigned one after another to a new dict, the pairs are merged in the same way. -/
theorem payload?_putPairs :
    ((heap.newDict keyType valueType []).2.putPairs heap.cells.size pairs).payload? heap.cells.size =
      some (.dict (pairs.foldl heap.merge [])) := by
  have empty : heap.Balanced slots
      ((Payload.dict []).children + ((Payload.dict pairs).children + handles)) := by
    simpa [Payload.children] using balanced
  have created : (heap.newDict keyType valueType []).2.Balanced slots
      ((Payload.dict pairs).children + heap.cells.size ::ₘ handles) := by
    rw [Multiset.add_cons]
    exact empty.newDict keyType valueType
  have merged : heap.Merged (heap.newDict keyType valueType []).2 heap.cells.size [] := by
    refine ⟨(Survives.allocate heap _ _).but _, ?_, by simp⟩
    exact (payload?_allocate heap.cells.size).trans (if_pos rfl)
  exact (merged.putPairs balanced le_rfl created (by simp) fun _ member =>
    lt_size_of_listed balanced (mem_children_of_mem_keys (List.mem_map_of_mem member))).payload

theorem payload?_newDict :
    (heap.newDict keyType valueType pairs).2.payload? (heap.newDict keyType valueType pairs).1 =
      some (.dict (pairs.foldl heap.merge [])) := by
  rw [newDict_eq, ← insertPairs_eq balanced]
  exact (payload?_allocate _).trans (if_pos rfl)

omit balanced in
theorem lost_newDict : heap.lost (heap.newDict keyType valueType pairs).2 =
    heap.lost (heap.insertPairs [] pairs).2 := by
  have same : ∀ address ∈ List.range heap.cells.size,
      ((heap.newDict keyType valueType pairs).2.payload? address).isNone =
        ((heap.insertPairs [] pairs).2.payload? address).isNone := by
    intro address member
    have old : address ≠ (heap.insertPairs [] pairs).2.cells.size := by
      rw [(Remains.insertPairs heap [] pairs).cells]
      exact (List.mem_range.mp member).ne
    rw [newDict_eq, payload?_allocate, if_neg old]
  rw [lost, lost, List.filter_congr same]

theorem slotCount_newDict (address : Address) :
    (heap.newDict keyType valueType pairs).2.slotCount address +
        (heap.lost (heap.newDict keyType valueType pairs).2).count address =
      heap.slotCount address +
        ((Payload.dict (pairs.foldl heap.merge [])).children : Multiset Address).count address := by
  have remains := Remains.insertPairs heap [] pairs
  have counted := congrArg (Multiset.count address) remains.stored_add_lost
  have after : (heap.newDict keyType valueType pairs).2.stored =
      (heap.insertPairs [] pairs).2.stored +
        (Payload.dict (pairs.foldl heap.merge [])).children := by
    rw [newDict_eq, stored_allocate, insertPairs_eq balanced]
  rw [(balanced.newDict keyType valueType).slotCount_eq, balanced.slotCount_eq, lost_newDict, after]
  simp only [Multiset.count_add] at counted ⊢
  omega

theorem lost_newDict_of_held
    (held : ∀ child ∈ (Payload.dict pairs).children, child ∈ slots + handles) :
    heap.lost (heap.newDict keyType valueType pairs).2 = 0 := by
  have alive : ∀ address, (heap.insertPairs [] pairs).2.payload? address = heap.payload? address := by
    apply payload?_insertPairs_of_held (by simpa [Payload.children] using balanced) ?_ (by simp)
    intro pair member
    exact ⟨held _ (mem_children_of_mem_keys (List.mem_map_of_mem member)),
      held _ (Payload.mem_children_of_mem_offers (List.mem_map_of_mem member))⟩
  rw [lost_newDict, lost_eq_zero alive]

theorem valueOf?_newDict {key : Address} (member : key ∈ pairs.map Prod.fst)
    (alive : (heap.newDict keyType valueType pairs).2.payload? key ≠ none) :
    ∃ value, heap.latest pairs key = some value ∧
      (heap.newDict keyType valueType pairs).2.valueOf? (heap.newDict keyType valueType pairs).1 key =
        some value := by
  have survives := (Crafted.newDict heap keyType valueType pairs).survives
  have settled := balanced.newDict keyType valueType
  have present := payload?_newDict balanced keyType valueType
  obtain ⟨position, entry, found, there, last⟩ := (Collects.foldl heap pairs).exists_entry member
  have same : Heap.findEntry? (heap.newDict keyType valueType pairs).2
      (pairs.foldl heap.merge []) key = heap.findEntry? (pairs.foldl heap.merge []) key := by
    rw [findEntry?_eq_keys, findEntry?_eq_keys]
    refine findIdx?_congr fun other inside => ?_
    have held := settled.closed ⟨_, present, mem_children_of_mem_keys inside⟩
    rw [(Collects.foldl heap pairs).keys] at inside
    have listed := heap.firsts_subset _ inside
    exact survives.equals_eq balanced settled
      ⟨lt_size_of_listed balanced (mem_children_of_mem_keys listed),
        lt_size_of_listed balanced (mem_children_of_mem_keys member)⟩ ⟨held, alive⟩
  refine ⟨entry.2, last, ?_⟩
  simp [valueOf?, entry?, Heap.entries, present, same, found, there]

end

/-- A dict that is made of pairs has the entries that it gets from assigning them one after
another: the first of equal keys with the last value.  What is listed leads to that value.
Slots are counted exactly, also those that go with objects that nothing refers to any more,
and none goes if all that is listed is referred to. -/
theorem newDict_agrees (balanced : heap.Balanced slots ((Payload.dict pairs).children + handles))
    {keyType valueType : StaticType} (made : heap.newDict keyType valueType pairs = (dict, after)) :
    ∃ entries, after.payload? dict = some (.dict entries) ∧
      ((heap.newDict keyType valueType []).2.putPairs (heap.newDict keyType valueType []).1
        pairs).payload? (heap.newDict keyType valueType []).1 = some (.dict entries) ∧
      heap.Collects pairs entries ∧
      (∀ key ∈ pairs.map Prod.fst, after.payload? key ≠ none →
        ∃ value, heap.latest pairs key = some value ∧ after.valueOf? dict key = some value) ∧
      (∀ address, after.slotCount address + (heap.lost after).count address =
        heap.slotCount address +
          ((Payload.dict entries).children : Multiset Address).count address) ∧
      ((∀ child ∈ (Payload.dict pairs).children, child ∈ slots + handles) → heap.lost after = 0) := by
  obtain ⟨rfl, rfl⟩ := Prod.ext_iff.mp made
  exact ⟨_, payload?_newDict balanced keyType valueType, payload?_putPairs balanced keyType valueType,
    Collects.foldl heap pairs, fun key => valueOf?_newDict balanced keyType valueType,
    slotCount_newDict balanced keyType valueType, lost_newDict_of_held balanced keyType valueType⟩

theorem Balanced.retainAll (balanced : heap.Balanced slots handles) {addresses : List Address}
    (held : ∀ address ∈ addresses, address ∈ slots + handles) :
    (addresses.foldl Heap.retain heap).Balanced slots (addresses + handles) := by
  induction addresses using List.reverseRecOn with
  | nil => simpa using balanced
  | append_singleton addresses address induction =>
      have others := induction fun other member => held other (List.mem_append_left _ member)
      have there : address ∈ slots + (addresses + handles) := by
        rw [add_left_comm]
        exact Multiset.mem_add.mpr (Or.inr (held address (by simp)))
      have shared := others.retain (mem_of_held there _)
      rw [List.foldl_append, ← Multiset.coe_add, add_right_comm, add_comm, Multiset.coe_singleton,
        Multiset.singleton_add]
      exact shared

/-- Two keys that are equal, a value, and NaN, of each of which a handle is kept. -/
def listing : Heap :=
  let heap := (({} : Heap).newScalar (.int 1)).2
  let heap := (heap.newScalar (.int 1)).2
  let heap := ((heap.newScalar (.int 5)).2.newScalar (.float Binary32.nan)).2
  [0, 2, 3, 2, 1, 3, 3, 0].foldl retain heap

theorem listing_balanced :
    listing.Balanced 0 ((Payload.dict [(0, 2), (3, 2), (1, 3), (3, 0)]).children + {3, 2, 1, 0}) := by
  have crafting := Balanced.crafting 0 0
  have blank : ({} : Heap).Balanced (0 + 0) (0 + 0) := (Ledger.Balanced.blank none).heap
  have ones := crafting.newScalar (crafting.newScalar blank (.int 1)) (.int 1)
  have scalars := crafting.newScalar (crafting.newScalar ones (.int 5)) (.float Binary32.nan)
  exact scalars.retainAll (by decide)

/-- The first of the equal keys stays, and NaN is found by identity. -/
theorem newDict_agrees_listing :
    ∃ after, listing.newDict .int .int [(0, 2), (3, 2), (1, 3), (3, 0)] = (4, after) ∧
      after.payload? 4 = some (.dict [(0, 3), (3, 0)]) ∧ after.valueOf? 4 1 = some 3 ∧
      ∀ address, after.slotCount address = listing.slotCount address + [0, 3, 3, 0].count address := by
  have dict : (listing.newDict .int .int [(0, 2), (3, 2), (1, 3), (3, 0)]).1 = 4 := by
    decide +kernel
  obtain ⟨entries, payload, _, collects, found, counted, none⟩ :=
    newDict_agrees listing_balanced (Prod.ext_iff.mpr ⟨dict, rfl⟩)
  have made : (listing.newDict .int .int [(0, 2), (3, 2), (1, 3), (3, 0)]).2.payload? 4 =
      some (.dict [(0, 3), (3, 0)]) := by decide +kernel
  cases made.symm.trans payload
  obtain ⟨value, last, read⟩ := found 1 (by decide) (by decide +kernel)
  have latest : listing.latest [(0, 2), (3, 2), (1, 3), (3, 0)] 1 = some 3 := by decide +kernel
  cases latest.symm.trans last
  refine ⟨_, Prod.ext_iff.mpr ⟨dict, rfl⟩, made, read, fun address => ?_⟩
  have balance := counted address
  rw [none (by decide), Multiset.count_zero, add_zero, Multiset.coe_count] at balance
  exact balance

/-- Two keys that are equal, of which the first comes with a vector that nothing else refers
to, and the second with what the vector holds. -/
def superseding : Heap :=
  let heap := (({} : Heap).newScalar (.int 7)).2.retain 0
  (((heap.newVector .int [0]).2.newScalar (.int 1)).2.newScalar (.int 1)).2

theorem superseding_balanced :
    superseding.Balanced 0 ((Payload.dict [(2, 1), (3, 0)]).children + 0) := by
  have crafting := Balanced.crafting 0 0
  have blank : ({} : Heap).Balanced (0 + 0) (0 + 0) := (Ledger.Balanced.blank none).heap
  have shared : ((({} : Heap).newScalar (.int 7)).2.retain 0).Balanced (0 + 0)
      (Multiset.ofList [0] + {0} + 0) :=
    (crafting.newScalar blank (.int 7)).retain (by decide)
  have keyed := crafting.newScalar (crafting.newScalar (crafting.newVector shared .int) (.int 1))
    (.int 1)
  have order : ((Payload.dict [(2, 1), (3, 0)]).children + 0 : Multiset Address) = {3, 2, 1, 0} := by
    decide
  rw [order]
  exact keyed

/-- What the superseded vector held has one slot before and one after, although it is retained
in a slot that is new. -/
theorem slotCount_not_added :
    ¬ ∀ {heap after : Heap} {dict : Address} {pairs entries : List (Address × Address)}
      {slots handles : Multiset Address} {keyType valueType : StaticType},
      heap.Balanced slots ((Payload.dict pairs).children + handles) →
      heap.newDict keyType valueType pairs = (dict, after) →
      after.payload? dict = some (.dict entries) →
      ∀ child ∈ (Payload.dict pairs).children,
        after.slotCount child =
          heap.slotCount child + ((Payload.dict entries).children : Multiset Address).count child := by
  intro grows
  have payload : (superseding.newDict .int .int [(2, 1), (3, 0)]).2.payload?
      (superseding.newDict .int .int [(2, 1), (3, 0)]).1 = some (.dict [(2, 0)]) := by
    decide +kernel
  have counted : (superseding.newDict .int .int [(2, 1), (3, 0)]).2.slotCount 0 = 1 := by
    decide +kernel
  obtain ⟨dict, after, made⟩ :
      ∃ dict after, superseding.newDict .int .int [(2, 1), (3, 0)] = (dict, after) := ⟨_, _, rfl⟩
  rw [made] at payload counted
  have grown := grows superseding_balanced made payload 0 (by decide)
  have before : superseding.slotCount 0 = 1 := by decide
  rw [counted, before] at grown
  exact absurd grown (by decide)

end Heap

end ScriptEngine
