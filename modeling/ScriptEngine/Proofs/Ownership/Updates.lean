import ScriptEngine.Proofs.Abreast.Objects
import ScriptEngine.Proofs.Hosting.Keys
import ScriptEngine.Proofs.Ownership.Chains

/-!
# Updates at the end of a chain

An object that is stored where a chain of keys leads is read back along keys that are equal
to them, and the one that was there is handed back.  Other paths lead where they led, or
fail as they failed.
-/

namespace ScriptEngine

namespace Heap

variable {heap after : Heap} {root container key value previous : Address} {place slot : Place}
  {scopes : Scopes} {tree : Tree} {slots handles : Multiset Address}

/-! ## Storing in a slot -/

/-- Contents that lead to a slot lead to one that is there. -/
theorem exists_load_of_spotAt {spot : Spot} (found : heap.spotAt container tree = .ok spot)
    (isSlot : place.IsSlot container spot) (scopes : Scopes) :
    ∃ value, place.load scopes heap = .ok value := by
  unfold spotAt at found
  split at found
  · rename_i elements payload
    cases position : vectorPosition tree.shape elements.length with
    | error cause => simp [position, Except.map] at found
    | ok index =>
        simp only [position, Except.map, Except.ok.injEq] at found
        subst found
        cases isSlot
        have inside := lt_of_vectorPosition position
        exact ⟨elements[index], load_element_iff.mpr (by simp [element?, payload, inside])⟩
  · rename_i entries payload
    split at found
    · rename_i position present
      cases found
      cases isSlot
      rw [findTree?, List.findIdx?_map, List.findIdx?_map] at present
      have inside := (List.findIdx?_eq_some_iff_getElem.mp present).1
      refine ⟨entries[position].2, load_entry_iff.mpr ⟨entries[position].1, ?_⟩⟩
      simp [payload, inside, Heap.entries, entry?]
    · cases found
      cases isSlot
  · simp at found

end Heap

namespace Place

variable {place slot : Place} {scopes : Scopes} {heap : Heap} {container object previous : Address}

/-- Other slots are not filled anew. -/
theorem load_point_of_ne (different : slot ≠ place) (found : slot.load scopes heap = .ok object)
    (value : Address) (inside : place.handles ≠ []) :
    slot.load scopes (place.point scopes heap value).2 = .ok object := by
  have spared : ∀ {payload holder}, holder ∉ slot.handles →
      slot.load scopes (heap.setPayload holder payload) = .ok object := by
    intro payload holder absent
    apply load_congr found fun _ => rfl
    intro other member
    apply Heap.payload?_setPayload_of_ne
    rintro rfl
    exact absent member
  cases place with
  | binding depth name => exact absurd rfl inside
  | element vector position =>
      simp only [point]
      split
      · rename_i elements payload
        by_cases member : vector ∈ slot.handles
        · cases slot with
          | binding depth name => simp [handles] at member
          | element other index =>
              cases List.mem_singleton.mp member
              have apart : position ≠ index := fun same => different (by rw [same])
              rw [Heap.load_element_iff] at found ⊢
              simp only [Heap.element?, payload, Heap.payload?_setPayload_self payload] at found ⊢
              rwa [List.getElem?_set_ne apart]
          | entry other index =>
              cases List.mem_singleton.mp member
              simp [load, payload] at found
        · exact spared member
      · exact found
  | entry dict position =>
      simp only [point]
      split
      · rename_i entries payload
        by_cases member : dict ∈ slot.handles
        · cases slot with
          | binding depth name => simp [handles] at member
          | element other index =>
              cases List.mem_singleton.mp member
              simp [load, payload] at found
          | entry other index =>
              cases List.mem_singleton.mp member
              have apart : position ≠ index := fun same => different (by rw [same])
              rw [Heap.load_entry_iff] at found ⊢
              simp only [Heap.entry?, Heap.entries, payload,
                Heap.payload?_setPayload_self payload] at found ⊢
              rwa [Heap.setEntry, List.getElem?_modify_ne _ _ apart]
        · exact spared member
      · exact found

end Place

namespace Heap

variable {start heap after : Heap} {root container key value previous : Address} {place slot : Place}
  {scopes : Scopes} {slots handles : Multiset Address}

/-- What storing an object in a slot of a container does. -/
structure Stores (heap after : Heap) (scopes : Scopes) (container : Address) (place : Place)
    (previous value : Address) : Prop where
  only : place.handles = [container]
  loaded : place.load scopes heap = .ok previous
  store : place.store scopes heap value = (.ok previous, scopes, after)
  load : place.load scopes after = .ok value
  replaces : ∃ payload payload', heap.payload? container = some payload ∧ payload.Evolves payload' ∧
    heap.Replaces after container payload'
  keys : ∀ dict, after.keys dict = heap.keys dict
  others : ∀ {slot : Place} {object}, slot ≠ place → slot.load scopes heap = .ok object →
    slot.load scopes after = .ok object

theorem stores_of_load (only : place.handles = [container])
    (loaded : place.load scopes heap = .ok previous)
    (balanced : heap.Balanced slots (value ::ₘ handles)) :
    ∃ after, Stores heap after scopes container place previous value ∧
      after.Balanced slots (previous ::ₘ handles) := by
  have entered : place.load scopes (heap.enterSlot value) = .ok previous :=
    Place.load_congr loaded (fun _ => rfl) fun holder _ => payload?_enterSlot heap value holder
  cases Place.leads_of_load loaded with
  | binding same _ => simp [same, Place.handles] at only
  | @inside holder object replaced only' alive offered refills point =>
      cases only.symm.trans only'
      have found := payload?_of_get? alive
      have pointed := point scopes (heap.enterSlot value) value
        ((payload?_enterSlot heap value container).trans found)
      have stored := Place.store_of_load loaded value
      rw [pointed] at stored
      refine ⟨_, ⟨only, loaded, stored, ?_, ⟨_, _, found, (refills value).evolves, ?_⟩, ?_, ?_⟩, ?_⟩
      · obtain ⟨scopes', heap', stored', back⟩ := Place.load_store loaded value
        cases stored'.symm.trans stored
        exact back
      · exact @replaces_setPayload heap container _ [value] [previous] object alive
      · intro dict
        have same := keys_store place scopes heap value dict
        rwa [stored] at same
      · intro slot other different loaded'
        have kept : slot.load scopes (heap.enterSlot value) = .ok other :=
          Place.load_congr loaded' (fun _ => rfl) fun holder _ => payload?_enterSlot heap value holder
        have spared := Place.load_point_of_ne different kept value (by simp [only])
        rw [pointed] at spared
        exact Place.load_congr spared (fun _ => rfl) fun holder _ => payload?_leaveSlot _ previous holder
      · have counted := balanced.enterSlot
        obtain ⟨current, living, same⟩ := payload?_eq_some_iff.mp
          ((payload?_enterSlot heap value container).trans found)
        have refilled : ((heap.enterSlot value).setPayload container (replaced value)).Balanced
            (previous ::ₘ slots) handles := by
          apply counted.setPayload living
          have exchanged : previous ::ₘ (replaced value).children =
              value ::ₘ (object.payload.children : Multiset Address) := by
            simpa using (refills value).exchange.2.2
          rw [same, Multiset.add_cons, Multiset.add_cons, ← Multiset.cons_add, exchanged,
            Multiset.cons_add]
        exact refilled.leaveSlot

theorem Stores.confined (stores : Stores heap after scopes container place previous value)
    (way : heap.Way root container) : Confined root heap after := by
  obtain ⟨payload, payload', found, evolves, replaces⟩ := stores.replaces
  refine ⟨.replaces replaces found evolves, ?_⟩
  intro address content old apart present
  have different : container ≠ address := by
    rintro rfl
    have holds := Place.holds_of_load stores.loaded (by simp [stores.only] : container ∈ _)
    exact apart ⟨way, holds.isContainer⟩
  rwa [replaces.spared different] at present

/-- No object comes to be. -/
theorem Stores.alive_before (stores : Stores heap after scopes container place previous value)
    {address : Address} (alive : after.payload? address ≠ none) : heap.payload? address ≠ none := by
  obtain ⟨payload, payload', found, _, replaces⟩ := stores.replaces
  by_cases same : container = address
  · obtain rfl := same
    simp [found]
  · rwa [replaces.spared same] at alive

/-! ## Reading back -/

/-- An object has the contents that a tree shows. -/
def Named (heap : Heap) (address : Address) (tree : Tree) : Prop :=
  ∃ tree' : Tree, heap.Depicts address tree' ∧ tree'.equals tree = true

theorem payload?_ne_none_of_equals {left right : Address} (same : heap.equals left right = true)
    (alive : heap.payload? left ≠ none) : heap.payload? right ≠ none := by
  rw [equals, Nat.succ_mul, Nat.add_succ, equalWithin_succ, Bool.or_eq_true, beq_iff_eq] at same
  rcases same with rfl | agrees
  · exact alive
  · intro absent
    rw [absent] at agrees
    cases found : heap.payload? left with
    | none => exact alive found
    | some payload => cases payload <;> simp [found, agree] at agrees

namespace Confined

variable {before : Heap} {slots' handles' : Multiset Address}
  (confined : Confined root before after) (balanced : before.Balanced slots handles)
  (balanced' : after.Balanced slots' handles')
include confined balanced balanced'

/-- An object with the contents of a key leads where these led. -/
theorem spot_of_spotAt {spot : Spot} {tree : Tree} {other : Address} (branches : before.Branches root)
    (way : before.Way root container) (alive : after.payload? container ≠ none)
    (keys : after.keys container = before.keys container)
    (found : before.spotAt container tree = .ok spot) (present : spot ≠ .absent)
    (named : after.Named other tree) : after.spot container other = .ok spot := by
  obtain ⟨tree', depicts, same⟩ := named
  have ends : ∀ key ∈ after.keys container, after.EndsWithin after.cells.size key := by
    intro key member
    rw [keys] at member
    have alike := confined.alike_key balanced balanced' branches way alive member
    exact (alike.endsWithin (branches.ends way member)).mono confined.evolves.size
  rw [Heap.spot_eq balanced' ends depicts (tree'.hasNan_of_equals tree same), spotAt_congr same]
  exact confined.spotAt balanced balanced' branches way alive found present

/-- What has the contents of a key goes on having them. -/
theorem named {other : Address} (isForeign : before.Foreign root key)
    (proper : (before.tree key).hasNan = false) (owned : before.payload? key ≠ none)
    (held : after.payload? other ≠ none)
    (same : before.Foreign root other ∧ before.payload? other ≠ none ∧
        before.equals other key = true ∨ after.equals other key = true) :
    after.Named other (before.tree key) := by
  have kept : ∀ {address}, before.Foreign root address → before.payload? address ≠ none →
      after.payload? address ≠ none →
        after.EndsWithin after.cells.size address ∧ after.tree address = before.tree address := by
    intro address isForeign owned living
    obtain ⟨payload, found⟩ := Option.ne_none_iff_exists'.mp owned
    have ends : before.EndsWithin before.cells.size address := isForeign.acyclic.endsWithin
    have alike := confined.alike balanced balanced' isForeign.aloof (lt_size_of_payload? found) living
    have size := confined.evolves.size
    exact ⟨(alike.endsWithin ends).mono size, alike.tree_of_ends le_rfl size ends⟩
  have ends : before.EndsWithin before.cells.size key := isForeign.acyclic.endsWithin
  rcases same with ⟨isForeign', owned', same⟩ | same
  · obtain ⟨ends', contents⟩ := kept isForeign' owned' held
    have shown := balanced.depicts_of_equals ends (balanced.depicts ends owned) proper owned' same
    exact ⟨before.tree other, contents ▸ balanced'.depicts ends' held, shown.2⟩
  · have alive := payload?_ne_none_of_equals same held
    obtain ⟨ends', contents⟩ := kept isForeign owned alive
    have depicts := balanced'.depicts ends' alive
    have shown := balanced'.depicts_of_equals ends' depicts (contents ▸ proper) held same
    exact ⟨_, shown.1, contents ▸ shown.2⟩

end Confined

namespace Stores

variable {holder : Address} {slots' handles' : Multiset Address}
  (stores : Stores heap after scopes holder place previous value)
  (balanced : heap.Balanced slots handles) (balanced' : after.Balanced slots' handles')
  (branches : heap.Branches root)
include stores balanced balanced' branches

/-- The slots on the way to the container that is written to are other ones than its own. -/
theorem readThrough_holder {trees : List Tree} {others : List Address}
    (named : List.Forall₂ after.Named others trees) (way : heap.Way root container)
    (alive : after.payload? container ≠ none) (read : heap.readAlong container trees = .ok holder) :
    after.readThrough container others = .ok holder := by
  have confined := stores.confined (way_of_readAlong way read)
  induction named generalizing container with
  | nil => exact read
  | @cons other tree others trees first _ induction =>
      rw [readAlong] at read
      split at read
      · cases read
      · rename_i inner found
        obtain ⟨slot, spot, isSlot, present, spotted, loaded⟩ := slot_of_readAt found scopes
        have only : slot.handles = [container] := by cases isSlot <;> rfl
        have here : container ∈ slot.handles := by simp [only]
        have holds := Place.holds_of_load loaded here
        have different : slot ≠ place := by
          rintro rfl
          obtain rfl : container = holder := by simpa [only] using stores.only
          have path := (way_of_readAlong (.here : heap.Way inner inner) read).reaches.path
          exact branches.acyclic way (Relation.TransGen.head' holds path)
        have loaded' := stores.others different loaded
        have spotted' := confined.spot_of_spotAt balanced balanced' branches way alive
          (stores.keys container) spotted present first
        have slotAt : after.SlotAt container other slot := ⟨spot, spotted', isSlot⟩
        rw [readThrough, slotAt.valueAt loaded']
        exact induction (way_of_load way loaded here)
          (balanced'.closed (Place.holds_of_load loaded' here)) read

/-- Along the contents of the keys that led to the slot, the stored object is read. -/
theorem readThrough_eq {trees : List Tree} {tree : Tree} {spot : Spot} {others : List Address}
    (named : List.Forall₂ after.Named others (trees ++ [tree]))
    (alive : after.payload? root ≠ none) (read : heap.readAlong root trees = .ok holder)
    (isSlot : place.IsSlot holder spot) (present : spot ≠ .absent)
    (found : heap.spotAt holder tree = .ok spot) :
    after.readThrough root others = .ok value := by
  have early := List.forall₂_take_append _ _ _ named
  obtain ⟨other, _, last, rest, split⟩ :=
    List.forall₂_cons_right_iff.mp (List.forall₂_drop_append _ _ _ named)
  obtain rfl := List.forall₂_nil_right_iff.mp rest
  have confined := stores.confined (way_of_readAlong .here read)
  have holds := Place.holds_of_load stores.load (by simp [stores.only] : holder ∈ _)
  obtain ⟨payload, written, _⟩ := id holds
  have spotted := confined.spot_of_spotAt balanced balanced' branches
    (way_of_readAlong .here read) (by simp [written]) (stores.keys holder) found present last
  have slotAt : after.SlotAt holder other place := ⟨spot, spotted, isSlot⟩
  rw [← List.take_append_drop trees.length others, split,
    readThrough_append (stores.readThrough_holder balanced balanced' branches early .here alive read),
    readThrough, slotAt.valueAt stores.load]
  rfl

end Stores

/-! ## What a store at the end of a chain does -/

/-- A path that is read does not pass a missing key. -/
theorem Passes.of_read {test missing : Address → Address → Prop} {keys : List Address}
    (passes : heap.Passes (fun container key => test container key ∨ missing container key) root keys)
    (absent : ∀ {container key}, missing container key → heap.spot container key = .ok .absent)
    (read : heap.readThrough root keys = .ok value) : heap.Passes test root keys := by
  induction passes with
  | here keys either =>
      rcases either with holds | misses
      · exact .here keys holds
      · rw [readThrough, valueAt, absent misses] at read
        cases read
  | there found _ induction =>
      rw [readThrough, found] at read
      exact .there found (induction read)

/-- An object that can be used in place of a key: it was equal to it, and shares nothing with
the ways, or it is equal to it in the end. -/
def Renames (root : Address) (start last : Heap) (other key : Address) : Prop :=
  last.payload? other ≠ none ∧
    (start.Foreign root other ∧ start.payload? other ≠ none ∧ start.equals other key = true ∨
      last.equals other key = true)

/-- An entry is created for a key of the chain that is equal to the one looked for. -/
def Creates (heap : Heap) (root : Address) (keys : List Address) (dict other : Address) : Prop :=
  heap.spot dict other = .ok .absent ∧
    ∃ key, heap.Misses root keys dict key ∧ heap.equals key other = true

section

variable {earlier : List Address} {holder : Address} {last : Heap}
  {slots' handles' slots'' handles'' : Multiset Address}
  (leads : Leads start heap root earlier key holder place)
  (stores : Stores heap last scopes holder place previous value)
  (balanced : start.Balanced slots handles) (balanced' : heap.Balanced slots' handles')
include leads stores

theorem Leads.confined : Confined root start last :=
  leads.grown.tends.confined (stores.confined (way_of_readAlong .here leads.read))

/-- The object that is handed back is the one that was read along the keys, if one was. -/
theorem Leads.previous_eq {object : Address}
    (read : start.readThrough root (earlier ++ [key]) = .ok object) : previous = object := by
  rcases leads.origin stores.loaded with ⟨_, same⟩ | ⟨_, dict, other, before, later, split, reached, absent⟩
  · exact Except.ok.inj (same.symm.trans read)
  · rw [split, readThrough_append reached, readThrough, valueAt, absent] at read
    cases read

include balanced

/-- Other paths lead where they led. -/
theorem Leads.readThrough_spared {path : List Address} (branches : start.Branches root)
    (old : start.payload? root ≠ none) (rooted : last.payload? root ≠ none)
    (counted : last.Balanced slots'' handles'')
    (fits : ∀ other ∈ earlier ++ [key], start.Fits root other)
    (isForeign : ∀ other ∈ path, start.Foreign root other ∧ start.payload? other ≠ none ∧
      last.payload? other ≠ none)
    (avoids : ¬ start.Passes (fun container other => start.SlotAt container other place ∨
      start.Creates root (earlier ++ [key]) container other) root path) :
    last.readThrough root path = start.readThrough root path := by
  have confined := leads.confined stores
  have size := confined.evolves.size
  have kept : ∀ {other}, start.Foreign root other → start.payload? other ≠ none →
      last.payload? other ≠ none →
      Alike start last other ∧ start.EndsWithin start.cells.size other := by
    intro other isForeign owned alive
    obtain ⟨payload, found⟩ := Option.ne_none_iff_exists'.mp owned
    exact ⟨confined.alike balanced counted isForeign.aloof (lt_size_of_payload? found) alive,
      isForeign.acyclic.endsWithin⟩
  apply @Confined.readThrough_eq _ _ _ _ _ scopes _ _ _ _ _ confined balanced counted branches _ _ _ .here _ rooted
    avoids
  · intro container other slot object slotAt apart loaded alive
    have living : ∀ holder ∈ slot.handles, ∃ object, heap.get? holder = some object := by
      obtain ⟨spot, _, isSlot⟩ := slotAt
      have only : slot.handles = [container] := by cases isSlot <;> rfl
      intro holder member
      rw [only, List.mem_singleton] at member
      obtain ⟨payload, living⟩ := Option.ne_none_iff_exists'.mp (stores.alive_before alive)
      obtain ⟨object, living, _⟩ := payload?_eq_some_iff.mp living
      exact ⟨object, member ▸ living⟩
    have different : slot ≠ place := by
      rintro rfl
      exact apart (Or.inl slotAt)
    exact stores.others different (Place.load_of_lengthens loaded leads.grown.lengthens living)
  · intro container other apart alike small absent added member fresh
    rw [stores.keys] at member
    have misses := (leads.grown.entered small member).resolve_left fresh
    obtain ⟨before, later, split, _⟩ := id misses
    have fit := fits added (by simp [split])
    have alive := counted.closed (holds_of_mem_keys (by rwa [stores.keys] : added ∈ last.keys container))
    rw [(kept fit.foreign fit.alive alive).1.equals alike, Bool.eq_false_iff]
    exact fun same => apart (Or.inr ⟨absent, added, misses, same⟩)
  · intro other member
    obtain ⟨away, owned, alive⟩ := isForeign other member
    obtain ⟨alike, ends⟩ := kept away owned alive
    exact ⟨alike, alike.tree_of_ends le_rfl size ends⟩
  · obtain ⟨payload, found⟩ := Option.ne_none_iff_exists'.mp old
    exact lt_size_of_payload? found

include balanced'

/-- What is used in place of the keys leads to the stored object. -/
theorem Leads.readThrough_renamed {others : List Address} (rooted : last.payload? root ≠ none)
    (counted : last.Balanced slots'' handles'') (fits : ∀ other ∈ earlier ++ [key], start.Fits root other)
    (renamed : List.Forall₂ (start.Renames root last) others (earlier ++ [key])) :
    last.readThrough root others = .ok value := by
  obtain ⟨spot, isSlot, present, found⟩ := leads.spot
  have named : List.Forall₂ last.Named others ((earlier ++ [key]).map start.tree) := by
    rw [List.forall₂_map_right_iff]
    apply forall₂_of_mem renamed
    rintro other original _ member ⟨alive, same⟩
    have fit := fits original member
    exact (leads.confined stores).named balanced counted fit.foreign fit.proper fit.alive alive same
  rw [List.map_append, List.map_singleton] at named
  exact stores.readThrough_eq balanced' counted leads.grown.branches named rooted leads.read isSlot
    present found

end

/-- Places obey the laws of getting and putting on whole chains of keys.  When an object is
stored in the place that a chain leads to, it is loaded from there and read along keys that
are equal to those of the chain, and the object that was there is handed back.  Along other
paths the same object is read, or the reading fails for the same reason, unless they pass
the place or an entry that was created for a key of the chain. -/
theorem chain_store_laws {keys : List Address} {middle : Heap}
    (balanced : start.Balanced slots (↑(key :: keys) + value ::ₘ handles))
    (rooted : root ∈ slots + handles) (treelike : start.Treelike root)
    (fits : ∀ other ∈ key :: keys, start.Fits root other)
    (located : start.locateAlong scopes root key keys = (.ok place, middle)) :
    ∃ previous last, place.load scopes middle = .ok previous ∧
      place.store scopes middle value = (.ok previous, scopes, last) ∧
      place.load scopes last = .ok value ∧
      (∀ object, start.readThrough root (key :: keys) = .ok object → previous = object) ∧
      (∀ others, List.Forall₂ (start.Renames root last) others (key :: keys) →
        last.readThrough root others = .ok value ∧
          ((∀ other ∈ others, other ∈ slots + handles) →
            ((last.retain root).readChain root others).1 = .ok value)) ∧
      ∀ path, (∀ other ∈ path, start.Foreign root other ∧ other ∈ slots + handles) →
        (∀ object, start.readThrough root path = .ok object →
          ¬ start.Passes (fun container other => start.SlotAt container other place) root path →
            last.readThrough root path = .ok object) ∧
        ∀ cause, start.readThrough root path = .error cause →
          ¬ start.Passes (fun container other => start.SlotAt container other place ∨
            start.Creates root (key :: keys) container other) root path →
            last.readThrough root path = .error cause := by
  obtain ⟨passed, final, holder, split, leads, counted⟩ :=
    leads_of_locateAlong balanced (mem_held_cons rooted value) treelike.branches fits located
  obtain ⟨spot, isSlot, _, found⟩ := leads.spot
  obtain ⟨previous, loaded⟩ := exists_load_of_spotAt found isSlot scopes
  have ready := counted
  rw [Multiset.cons_swap] at ready
  obtain ⟨last, stores, settled⟩ := stores_of_load leads.only loaded ready
  have alive : ∀ {other}, other ∈ slots + handles → last.payload? other ≠ none := fun held =>
    settled.payload?_ne_none (mem_held_cons (mem_held_cons held holder) previous)
  have owned : ∀ {other}, other ∈ slots + handles → start.payload? other ≠ none := fun held =>
    balanced.payload?_ne_none (by simp [Multiset.mem_add.mp held, or_left_comm])
  rw [← split] at fits
  refine ⟨previous, last, loaded, stores.store, stores.load, ?_, ?_, ?_⟩
  · intro object read
    rw [← split] at read
    exact leads.previous_eq stores read
  · intro others renamed
    rw [← split] at renamed
    have read := leads.readThrough_renamed stores balanced counted (alive rooted) settled fits renamed
    refine ⟨read, fun held => ?_⟩
    have kept : ∀ {other}, other ∈ slots + handles → other ∈ slots + previous ::ₘ holder ::ₘ handles :=
      fun held => mem_held_cons (mem_held_cons held holder) previous
    have shared := settled.retain (mem_of_held (kept rooted) last)
    have alike : ∀ {other}, other ∈ slots + handles → Alike last (last.retain root) other := by
      intro other held
      exact (Remains.retain last root).alike settled shared
        (shared.payload?_ne_none (mem_held_cons (kept held) root))
    rw [readChain_fst shared fun other member => kept (held other member),
      (alike rooted).readThrough_eq (Remains.retain last root).cells
        fun other member => alike (held other member)]
    exact read
  · intro path apart
    have spared := leads.readThrough_spared stores balanced treelike.branches (owned rooted)
      (alive rooted) settled fits fun other member =>
        ⟨(apart other member).1, owned (apart other member).2, alive (apart other member).2⟩
    rw [split] at spared
    constructor
    · intro object read avoids
      rw [spared fun passes => avoids (passes.of_read (fun creates => creates.1) read), read]
    · intro cause read avoids
      rw [spared avoids, read]

/-- A dict of dicts that has no entries yet, with two keys, of which handles are kept, and a
value. -/
def sprouting : Heap :=
  let heap := (({} : Heap).newDict .int (.dict .int .int) []).2
  let heap := (heap.newScalar (.int 1)).2
  let heap := (heap.newScalar (.int 2)).2
  ((heap.newScalar (.int 9)).2.retain 2).retain 1

theorem sprouting_balanced : sprouting.Balanced 0 {1, 2, 3, 2, 1, 0} := by
  have crafting := Balanced.crafting 0 0
  have blank : ({} : Heap).Balanced (0 + 0) ((Payload.dict []).children + 0 + 0) :=
    (Ledger.Balanced.blank none).heap
  have dict := crafting.newDict blank .int (.dict .int .int)
  have scalars := crafting.newScalar (crafting.newScalar (crafting.newScalar dict (.int 1)) (.int 2))
    (.int 9)
  exact (scalars.retain (by decide)).retain (by decide)

/-- Two entries are created on the way, and the value is read back. -/
theorem chain_store_laws_sprouting :
    ∃ middle last previous, sprouting.locateAlong {} 0 1 [2] = (.ok (.entry 4 0), middle) ∧
      (Place.entry 4 0).store {} middle 3 = (.ok previous, {}, last) ∧
      last.readThrough 0 [1, 2] = .ok 3 := by
  have hollow : ∀ holder child, ¬ sprouting.Holds holder child := by
    intro holder child holds
    have stored := mem_stored_iff_holds.mpr ⟨holder, holds⟩
    have none : sprouting.stored = 0 := by decide
    simp [none] at stored
  have reached : ∀ {root address}, sprouting.Reaches {root} address → address = root := by
    intro root address reaches
    cases reaches with
    | root member => exact Multiset.mem_singleton.mp member
    | slot _ holds => exact absurd holds (hollow _ _)
  have acyclic : ∀ address, sprouting.AcyclicFrom address := by
    intro address other _ cycle
    obtain ⟨child, holds, _⟩ := Relation.TransGen.head'_iff.mp cycle
    exact hollow _ _ holds
  have treelike : sprouting.Treelike 0 := by
    refine ⟨acyclic 0, fun container _ _ => ?_⟩
    have none : sprouting.stored = 0 := by decide
    simp [none]
  have fits : ∀ key ∈ [1, 2], sprouting.Fits 0 key := by
    intro key member
    refine ⟨⟨acyclic key, ?_⟩, ?_, ?_⟩
    · intro container reaches _ reaches'
      have same := (reached reaches).symm.trans (reached reaches')
      simp [← same] at member
    · revert key
      decide
    · revert key
      decide
  have balanced : sprouting.Balanced 0 (Multiset.ofList [1, 2] + 3 ::ₘ {2, 1, 0}) :=
    sprouting_balanced
  have place : (sprouting.locateAlong {} 0 1 [2]).1 = .ok (.entry 4 0) := by decide +kernel
  have located := Prod.ext_iff.mpr ⟨place, rfl⟩
  obtain ⟨previous, last, _, stored, _, _, back, _⟩ :=
    chain_store_laws balanced (by decide) treelike fits located
  refine ⟨_, last, previous, located, stored, (back [1, 2] ?_).1⟩
  have same := congrArg (·.2.2) stored
  have alive : ∀ key ∈ [1, 2], last.payload? key ≠ none := by
    simp only at same
    rw [← same]
    decide +kernel
  have renamed : ∀ key ∈ [1, 2], sprouting.Renames 0 last key key := fun key member =>
    ⟨alive key member, Or.inl ⟨(fits key member).foreign, (fits key member).alive, by
      rw [equals, Nat.succ_mul, Nat.add_succ, equalWithin_succ, beq_self_eq_true, Bool.true_or]⟩⟩
  exact .cons (renamed 1 (by simp)) (.cons (renamed 2 (by simp)) .nil)

end Heap

end ScriptEngine
