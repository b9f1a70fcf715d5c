import ScriptEngine.Proofs.Ownership.Paths
import ScriptEngine.Proofs.Ownership.Namesakes
import ScriptEngine.Proofs.Control.Lengthening

/-!
# Chains of keys

A place is found along keys, each of which creates the entry that it misses.  In the heap
that is left behind the contents of the keys lead to the place, and every new entry of a
dict that was there before belongs to the first key of the chain that was missing in it.
-/

namespace ScriptEngine

/-- The place that further keys lead to.  The handles of the keys are taken over. -/
def Place.follow (place : Place) (scopes : Scopes) (heap : Heap) :
    List Address → Except Cause Place × Heap
  | [] => (.ok place, heap)
  | key :: keys =>
      match place.load scopes heap with
      | .error cause => (.error cause, heap.releaseAll (place.handles ++ key :: keys))
      | .ok container =>
          match (heap.retain container).locate container key .write with
          | (.error cause, heap) =>
              (.error cause, (heap.release container).releaseAll (place.handles ++ keys))
          | (.ok next, heap) =>
              next.follow scopes ((heap.release container).releaseAll place.handles) keys

namespace Heap

/-- The place for writing that a chain of keys leads to from a container. -/
def locateAlong (heap : Heap) (scopes : Scopes) (root key : Address) (keys : List Address) :
    Except Cause Place × Heap :=
  match heap.locate root key .write with
  | (.error cause, heap) => (.error cause, heap.releaseAll keys)
  | (.ok place, heap) => place.follow scopes heap keys

variable {heap start before after : Heap} {root container dict key value target : Address}
  {keys : List Address} {place : Place} {scopes : Scopes}
  {slots handles slots' handles' : Multiset Address}

/-- From the root each container is led to by one slot at most, and none holds itself. -/
structure Treelike (heap : Heap) (root : Address) : Prop where
  acyclic : heap.AcyclicFrom root
  once : ∀ container, heap.Reaches {root} container → heap.IsContainer container →
    heap.stored.count container ≤ 1

/-- An object without cycles that shares no container with a root. -/
structure Foreign (heap : Heap) (root address : Address) : Prop where
  acyclic : heap.AcyclicFrom address
  apart : ∀ container, heap.Reaches {root} container → heap.IsContainer container →
    ¬ heap.Reaches {address} container

/-- The keys lead to a dict in which the next of them is missing. -/
def Misses (heap : Heap) (root : Address) (keys : List Address) (dict key : Address) : Prop :=
  ∃ earlier later, keys = earlier ++ key :: later ∧ heap.readThrough root earlier = .ok dict ∧
    heap.spot dict key = .ok .absent

theorem Treelike.branches (treelike : heap.Treelike root) : heap.Branches root := by
  constructor
  · exact fun ⟨way, container⟩ => treelike.once _ way.reaches container
  · exact fun way => treelike.acyclic _ way.reaches
  · intro dict key way member
    apply AcyclicFrom.endsWithin
    intro address reaches
    exact treelike.acyclic _ (Reaches.trans (.slot way.reaches (holds_of_mem_keys member)) reaches)

theorem Foreign.aloof (isForeign : heap.Foreign root key) : heap.Aloof root key :=
  fun stop ⟨way, container⟩ => isForeign.apart stop way.reaches container

theorem Misses.append (misses : heap.Misses root keys dict key) (more : List Address) :
    heap.Misses root (keys ++ more) dict key := by
  obtain ⟨earlier, later, rfl, read, absent⟩ := misses
  exact ⟨earlier, later ++ more, by simp, read, absent⟩

theorem readThrough_append (read : heap.readThrough root keys = .ok container)
    (more : List Address) :
    heap.readThrough root (keys ++ more) = heap.readThrough container more := by
  induction keys generalizing root with
  | nil =>
      cases read
      rfl
  | cons key keys induction =>
      rw [readThrough] at read
      rw [List.cons_append, readThrough]
      split at read
      · cases read
      · exact induction read

theorem readAlong_append {trees : List Tree} (read : heap.readAlong root trees = .ok container)
    (more : List Tree) : heap.readAlong root (trees ++ more) = heap.readAlong container more := by
  induction trees generalizing root with
  | nil =>
      cases read
      rfl
  | cons tree trees induction =>
      rw [readAlong] at read
      rw [List.cons_append, readAlong]
      split at read
      · cases read
      · exact induction read

theorem way_of_load (way : heap.Way root container) (loaded : place.load scopes heap = .ok value)
    (member : container ∈ place.handles) : heap.Way root value := by
  cases Place.leads_of_load loaded with
  | binding same _ => simp [same, Place.handles] at member
  | inside _ only living offered _ _ =>
      rw [only, List.mem_singleton] at member
      subst member
      exact .offer way (payload?_of_get? living) offered

theorem way_of_readAlong {trees : List Tree} (way : heap.Way root container)
    (read : heap.readAlong container trees = .ok target) : heap.Way root target := by
  induction trees generalizing container with
  | nil =>
      cases read
      exact way
  | cons tree trees induction =>
      rw [readAlong] at read
      split at read
      · cases read
      · rename_i inner found
        obtain ⟨place, spot, isSlot, _, _, loaded⟩ := slot_of_readAt found {}
        have here : container ∈ place.handles := by cases isSlot <;> simp [Place.handles]
        exact induction (way_of_load way loaded here) read

/-! ## What stays of the way that has been made -/

/-- The contents of keys lead on to what they led to while dicts only get more entries. -/
theorem Confined.readAlong (confined : Confined root before after)
    (balanced : before.Balanced slots handles) (balanced' : after.Balanced slots' handles')
    (branches : before.Branches root) (lengthens : before.Lengthens after) {trees : List Tree}
    (way : before.Way root container) (alive : after.payload? container ≠ none)
    (read : before.readAlong container trees = .ok target) :
    after.readAlong container trees = .ok target := by
  induction trees generalizing container with
  | nil => exact read
  | cons tree trees induction =>
      rw [Heap.readAlong] at read
      split at read
      · cases read
      · rename_i inner found
        obtain ⟨place, spot, isSlot, present, spotted, loaded⟩ := slot_of_readAt found {}
        have only : place.handles = [container] := by cases isSlot <;> rfl
        have loaded' : place.load {} after = .ok inner := by
          apply Place.load_of_lengthens loaded lengthens
          obtain ⟨payload, living⟩ := Option.ne_none_iff_exists'.mp alive
          obtain ⟨object, living, _⟩ := payload?_eq_some_iff.mp living
          simpa [only] using ⟨object, living⟩
        have spotted' := confined.spotAt balanced balanced' branches way alive spotted present
        rw [Heap.readAlong, readAt_of_load isSlot spotted' loaded']
        have here : container ∈ place.handles := by simp [only]
        exact induction (way_of_load way loaded here) (balanced'.closed (Place.holds_of_load loaded' here)) read

/-- What has been apart from the ways still is. -/
theorem Tends.aloof (tends : Tends root before after) (balanced : before.Balanced slots handles)
    (alike : Alike before after key) (alive : before.payload? key ≠ none)
    (aloof : before.Aloof root key) : after.Aloof root key := by
  intro stop inside reaches
  rw [alike.reaches] at reaches
  have living : before.payload? stop ≠ none := by
    cases reaches with
    | root member => rwa [Multiset.mem_singleton.mp member]
    | slot _ holds => exact balanced.closed holds
  obtain ⟨payload, found⟩ := Option.ne_none_iff_exists'.mp living
  exact aloof stop (tends.stops (lt_size_of_payload? found) inside) reaches

/-! ## Heaps in which entries have been created -/

/-- A heap that differs from an earlier one by entries for keys that were missing. -/
structure Enlarged (root : Address) (keys : List Address) (start heap : Heap) : Prop where
  tends : Tends root start heap
  lengthens : start.Lengthens heap
  branches : heap.Branches root
  entered : ∀ {dict key}, dict < start.cells.size → key ∈ heap.keys dict →
    key ∈ start.keys dict ∨ start.Misses root keys dict key
  young : ∀ {holder payload value}, start.cells.size ≤ holder →
    heap.payload? holder = some payload → value ∈ payload.offers → start.cells.size ≤ value

namespace Enlarged

variable (grown : Enlarged root keys start heap)

theorem refl (branches : start.Branches root) (keys : List Address) :
    Enlarged root keys start start := by
  refine ⟨(Remains.refl start).tends, (Remains.refl start).survives.lengthens, branches,
    fun _ member => Or.inl member, ?_⟩
  intro holder payload value young found
  exact absurd (lt_size_of_payload? found) (Nat.not_lt.mpr young)

include grown

theorem append (more : List Address) : Enlarged root (keys ++ more) start heap where
  tends := grown.tends
  lengthens := grown.lengthens
  branches := grown.branches
  entered old member := (grown.entered old member).imp id fun misses => misses.append more
  young := grown.young

theorem remains (remains : Remains heap after) : Enlarged root keys start after := by
  refine ⟨grown.tends.trans remains.tends, grown.lengthens.trans remains.survives.lengthens,
    remains.branches grown.branches, ?_, ?_⟩
  · intro dict key old member
    obtain ⟨entries, found, inside⟩ := exists_entries_of_mem_keys member
    apply grown.entered old
    rwa [keys_of_payload? (remains.payload found)]
  · intro holder payload value young found offered
    exact grown.young young (remains.payload found) offered

/-- The new entry is for a key that was missing, or in a dict that is new itself. -/
theorem createEntry {entries : List (Address × Address)}
    (found : heap.payload? dict = some (.dict entries))
    (balanced : heap.Balanced slots (key ::ₘ handles)) (way : heap.Way root dict)
    (aloof : heap.Aloof root key) (ends : heap.EndsWithin heap.cells.size key)
    (missing : dict < start.cells.size → start.Misses root keys dict key) :
    Enlarged root keys start (heap.createEntry dict key entries) := by
  have size := grown.tends.evolves.size
  refine ⟨grown.tends.trans (.createEntry found way), grown.lengthens.trans (.createEntry found),
    grown.branches.createEntry found balanced way aloof ends, ?_, ?_⟩
  · intro holder other old member
    rcases mem_keys_createEntry found member with older | ⟨rfl, rfl⟩
    · exact grown.entered old older
    · exact Or.inr (missing old)
  · intro holder payload value young present offered
    by_cases same : dict = holder
    · subst same
      cases (payload?_createEntry key found).symm.trans present
      rw [Payload.offers, List.map_append, List.mem_append] at offered
      rcases offered with older | newer
      · exact grown.young young found older
      · simp only [List.map_cons, List.map_nil, List.mem_singleton] at newer
        rwa [newer]
    · rw [payload?_createEntry_of_apart found same] at present
      split at present
      · cases present
        have child := Payload.mem_children_of_mem_offers offered
        simp [StaticType.children_initial] at child
      · exact grown.young young present offered

/-- A key that shares nothing with the ways is as it was. -/
theorem alike (balanced : start.Balanced slots handles) (balanced' : heap.Balanced slots' handles')
    (isForeign : start.Foreign root key) (owned : start.payload? key ≠ none)
    (held : key ∈ slots' + handles') : Alike start heap key := by
  obtain ⟨payload, found⟩ := Option.ne_none_iff_exists'.mp owned
  exact grown.tends.alike balanced balanced' isForeign.aloof (lt_size_of_payload? found)
    (balanced'.payload?_ne_none held)

end Enlarged

/-! ## Walks -/

/-- What keys lead to was led to at the start, or it is new as the entry for one of them
is. -/
def Origin (start heap : Heap) (root : Address) (keys : List Address) (value : Address) : Prop :=
  Remains start heap ∧ start.readThrough root keys = .ok value ∨
    start.cells.size ≤ value ∧ ∃ dict key, start.Misses root keys dict key

/-- A walk along keys has come to an object. -/
structure Arrives (start heap : Heap) (root : Address) (keys : List Address) (target : Address) :
    Prop where
  grown : Enlarged root keys start heap
  read : heap.readAlong root (keys.map start.tree) = .ok target
  origin : start.Origin heap root keys target

/-- A walk along keys has come to a slot of a container. -/
structure Leads (start heap : Heap) (root : Address) (earlier : List Address) (key : Address)
    (container : Address) (place : Place) : Prop where
  grown : Enlarged root (earlier ++ [key]) start heap
  read : heap.readAlong root (earlier.map start.tree) = .ok container
  spot : ∃ spot, place.IsSlot container spot ∧ spot ≠ .absent ∧
    heap.spotAt container (start.tree key) = .ok spot
  origin : ∀ {scopes value}, place.load scopes heap = .ok value →
    start.Origin heap root (earlier ++ [key]) value

namespace Leads

variable {earlier : List Address} (leads : Leads start heap root earlier key container place)
include leads

theorem only : place.handles = [container] := by
  obtain ⟨spot, isSlot, _⟩ := leads.spot
  cases isSlot <;> rfl

theorem arrives (loaded : place.load scopes heap = .ok value) :
    Arrives start heap root (earlier ++ [key]) value := by
  obtain ⟨spot, isSlot, _, found⟩ := leads.spot
  refine ⟨leads.grown, ?_, leads.origin loaded⟩
  rw [List.map_append, readAlong_append leads.read, List.map_singleton, readAlong,
    readAt_of_load isSlot found loaded]
  rfl

theorem remains (remains : Remains heap after) (balanced : heap.Balanced slots handles)
    (balanced' : after.Balanced slots' handles') (rooted : root ∈ slots' + handles')
    (alive : after.payload? container ≠ none) :
    Leads start after root earlier key container place := by
  have confined := (@Remains.tends _ _ root remains).toConfined
  have branches := leads.grown.branches
  obtain ⟨spot, isSlot, present, found⟩ := leads.spot
  refine ⟨leads.grown.remains remains, ?_, ⟨spot, isSlot, present, ?_⟩, ?_⟩
  · exact confined.readAlong balanced balanced' branches remains.survives.lengthens .here
      (balanced'.payload?_ne_none rooted) leads.read
  · exact confined.spotAt balanced balanced' branches (way_of_readAlong .here leads.read) alive
      found present
  · intro scopes value loaded
    have past : place.load scopes heap = .ok value := by
      apply remains.survives.load loaded
      intro holder member
      rw [leads.only, List.mem_singleton] at member
      obtain ⟨payload, living⟩ := Option.ne_none_iff_exists'.mp alive
      rw [member]
      exact lt_size_of_payload? (remains.payload living)
    exact (leads.origin past).imp (fun ⟨kept, read⟩ => ⟨kept.trans remains, read⟩) id

end Leads

/-! ## One key further -/

namespace Arrives

variable (arrives : Arrives start heap root keys container)
  (balanced : start.Balanced slots handles) (balanced' : heap.Balanced slots' (key ::ₘ handles'))
  (isForeign : start.Foreign root key) (owned : start.payload? key ≠ none)
include arrives balanced balanced' isForeign owned

theorem key_alike : Alike start heap key :=
  arrives.grown.alike balanced balanced' isForeign owned (by simp)

variable (here : container ∈ slots' + handles')
include here

/-- Before anything is created, the key leads where it led at the start. -/
theorem valueAt_eq (kept : Remains start heap) :
    heap.valueAt container key = start.valueAt container key ∧
      heap.spot container key = start.spot container key := by
  have alikeKey := arrives.key_alike balanced balanced' isForeign owned
  have alive := balanced'.payload?_ne_none (mem_held_cons here key)
  have alike := kept.alike balanced balanced' alive
  exact ⟨alike.valueAt_eq kept.cells alikeKey, alike.spot_eq kept.cells alikeKey⟩

theorem misses (absent : heap.spot container key = .ok .absent) (old : container < start.cells.size) :
    start.Misses root (keys ++ [key]) container key := by
  rcases arrives.origin with ⟨kept, read⟩ | ⟨young, _⟩
  · have same := (arrives.valueAt_eq balanced balanced' isForeign owned here kept).2
    exact ⟨keys, [], rfl, read, same.symm.trans absent⟩
  · exact absurd old (Nat.not_lt.mpr young)

theorem origin_of_valueAt (remains : Remains heap after)
    (read : heap.valueAt container key = .ok value) :
    start.Origin after root (keys ++ [key]) value := by
  rcases arrives.origin with ⟨kept, through⟩ | ⟨young, dict, other, misses⟩
  · have same := (arrives.valueAt_eq balanced balanced' isForeign owned here kept).1
    refine Or.inl ⟨kept.trans remains, ?_⟩
    rw [readThrough_append through, readThrough, same.symm.trans read]
    rfl
  · obtain ⟨object, alive, offered⟩ := offered_of_valueAt read
    exact Or.inr ⟨arrives.grown.young young (payload?_of_get? alive) offered, dict, other,
      misses.append [key]⟩

theorem origin_of_absent (absent : heap.spot container key = .ok .absent) :
    start.Origin after root (keys ++ [key]) heap.cells.size := by
  refine Or.inr ⟨arrives.grown.tends.evolves.size, ?_⟩
  rcases arrives.origin with ⟨kept, through⟩ | ⟨_, dict, other, misses⟩
  · have same := (arrives.valueAt_eq balanced balanced' isForeign owned here kept).2
    exact ⟨container, key, keys, [], rfl, through, same.symm.trans absent⟩
  · exact ⟨dict, other, misses.append [key]⟩

/-- What finding a place does to the heap. -/
theorem grown_of_locate (located : heap.locate container key .write = (.ok place, after)) :
    (Enlarged root (keys ++ [key]) start after ∧ Tends root heap after) ∧
      after.Balanced slots' (container ::ₘ handles') ∧
        ∀ {scopes value}, place.load scopes after = .ok value →
          start.Origin after root (keys ++ [key]) value := by
  have grown := arrives.grown.append [key]
  have way := way_of_readAlong .here arrives.read
  rcases locate_write_cases located with ⟨⟨position, found⟩, rfl⟩ |
    ⟨entries, payload, missing, rfl, rfl⟩
  · have remains := (Remains.release heap key).trans (.retain _ container)
    have slotAt : heap.SlotAt container key place ∧ place.handles = [container] := by
      rcases found with ⟨found, rfl⟩ | ⟨found, rfl⟩
      · exact ⟨⟨_, found, .element position⟩, rfl⟩
      · exact ⟨⟨_, found, .entry position⟩, rfl⟩
    refine ⟨⟨grown.remains remains, remains.tends⟩, balanced'.release.retain (mem_of_held here _), ?_⟩
    intro scopes value loaded
    apply arrives.origin_of_valueAt balanced balanced' isForeign owned here remains
    refine slotAt.1.valueAt (remains.survives.load loaded ?_)
    intro holder member
    rw [slotAt.2, List.mem_singleton] at member
    rw [member]
    exact balanced'.lt_size (mem_of_held (mem_held_cons here key) heap)
  · have absent : heap.spot container key = .ok .absent := by
      unfold spot
      simp only [payload, missing]
    have alike := arrives.key_alike balanced balanced' isForeign owned
    have ends : start.EndsWithin start.cells.size key := isForeign.acyclic.endsWithin
    have ends' := (alike.endsWithin ends).mono grown.tends.evolves.size
    have aloof := grown.tends.aloof balanced alike owned isForeign.aloof
    have created := grown.createEntry payload balanced' way aloof ends' fun old =>
      arrives.misses balanced balanced' isForeign owned here absent old
    have remains := Remains.retain (heap.createEntry container key entries) container
    refine ⟨⟨created.remains remains, (Tends.createEntry payload way).trans remains.tends⟩,
      (Balanced.createEntry payload balanced').retain (mem_of_held here _), ?_⟩
    intro scopes value loaded
    obtain ⟨other, stored⟩ := load_entry_iff.mp loaded
    have same : key = other ∧ heap.cells.size = value := by
      simpa [ Heap.entry?, Heap.entries, payload?_retain, payload?_createEntry key payload] using stored
    rw [← same.2]
    exact arrives.origin_of_absent balanced balanced' isForeign owned here absent

/-- The key leads to the place that has been found. -/
theorem locate (rooted : root ∈ slots' + handles') (proper : (start.tree key).hasNan = false)
    (located : heap.locate container key .write = (.ok place, after)) :
    Leads start after root keys key container place ∧
      after.Balanced slots' (container ::ₘ handles') := by
  obtain ⟨⟨grown, tends⟩, counted, origin⟩ :=
    arrives.grown_of_locate balanced balanced' isForeign owned here located
  have confined := tends.toConfined
  have branches := arrives.grown.branches
  have way := way_of_readAlong .here arrives.read
  have size := arrives.grown.tends.evolves.size
  have alike := arrives.key_alike balanced balanced' isForeign owned
  have ends : start.EndsWithin start.cells.size key := isForeign.acyclic.endsWithin
  have ends' : heap.EndsWithin heap.cells.size key := (alike.endsWithin ends).mono size
  have contents : heap.tree key = start.tree key := alike.tree_of_ends le_rfl size ends
  have living : heap.payload? key ≠ none := by
    rw [alike.payload]
    exact owned
  have depicts := balanced'.depicts ends' living
  have same := Heap.spot_eq balanced'
    (fun other member => branches.ends way member) depicts (contents ▸ proper)
  have alive : after.payload? container ≠ none := counted.payload?_ne_none (by simp)
  refine ⟨⟨grown, ?_, ?_, origin⟩, counted⟩
  · exact confined.readAlong balanced' counted branches (.locate located) .here
      (counted.payload?_ne_none (mem_held_cons rooted container)) arrives.read
  · refine Heap.spotAt_of_locate located (contents ▸ same) alive ?_ ?_ proper
    · exact fun other member => confined.tree_eq balanced' counted branches way alive member
    · intro member
      have aloof := arrives.grown.tends.aloof balanced alike owned isForeign.aloof
      have alike' := confined.alike balanced' counted aloof (balanced'.lt_size (by simp))
        (counted.closed (holds_of_mem_keys member))
      exact (alike'.tree_of_ends le_rfl confined.evolves.size ends').trans contents

end Arrives

/-- What a key of a chain has to be: it shares nothing with the ways, and has no NaN. -/
structure Fits (heap : Heap) (root key : Address) : Prop where
  foreign : heap.Foreign root key
  proper : (heap.tree key).hasNan = false
  alive : heap.payload? key ≠ none

section

variable (balanced : start.Balanced slots handles) (rooted : root ∈ slots' + handles')
include balanced rooted

/-- From the slot that has been found the walk goes on with another key. -/
theorem Leads.step {earlier : List Address} {next : Place} {other inner : Address}
    (leads : Leads start heap root earlier key container place)
    (balanced' : heap.Balanced slots' (container ::ₘ other ::ₘ handles'))
    (fits : start.Fits root other) (loaded : place.load scopes heap = .ok inner)
    (located : (heap.retain inner).locate inner other .write = (.ok next, after)) :
    Leads start ((after.release inner).releaseAll place.handles) root (earlier ++ [key]) other inner
        next ∧
      ((after.release inner).releaseAll place.handles).Balanced slots' (inner ::ₘ handles') := by
  have here : container ∈ place.handles := by simp [leads.only]
  have stored := mem_stored_iff_holds.mpr ⟨container, Place.holds_of_load loaded here⟩
  have shared : (heap.retain inner).Balanced slots' (inner ::ₘ container ::ₘ other ::ₘ handles') :=
    balanced'.retain (by simp [stored])
  have leads' := leads.remains (.retain heap inner) balanced' shared
    (mem_held_cons (mem_held_cons (mem_held_cons rooted _) _) _) (shared.payload?_ne_none (by simp))
  have loaded' : place.load scopes (heap.retain inner) = .ok inner :=
    Place.load_congr loaded (fun _ => rfl) fun holder _ => payload?_retain heap inner holder
  rw [Multiset.cons_swap container, Multiset.cons_swap inner] at shared
  obtain ⟨further, counted⟩ := (leads'.arrives loaded').locate balanced shared fits.foreign fits.alive
    (by simp) (mem_held_cons (mem_held_cons rooted _) _) fits.proper located
  have released := counted.release
  rw [Multiset.cons_swap] at released
  have released' := released.release
  rw [leads.only]
  have remains := (Remains.release after inner).trans (.release _ container)
  exact ⟨further.remains remains counted released' (mem_held_cons rooted _)
    (released'.payload?_ne_none (by simp)), released'⟩

theorem Leads.follow {earlier more : List Address} {last : Place}
    (leads : Leads start heap root earlier key container place)
    (balanced' : heap.Balanced slots' (container ::ₘ (more + handles')))
    (fits : ∀ other ∈ more, start.Fits root other)
    (followed : place.follow scopes heap more = (.ok last, after)) :
    ∃ passed final holder, passed ++ [final] = earlier ++ key :: more ∧
      Leads start after root passed final holder last ∧
        after.Balanced slots' (holder ::ₘ handles') := by
  induction more generalizing heap earlier key container place with
  | nil =>
      cases followed
      exact ⟨earlier, key, container, rfl, leads, by simpa using balanced'⟩
  | cons other more induction =>
      rw [Place.follow] at followed
      split at followed
      · simp at followed
      · rename_i inner loaded
        split at followed
        · simp at followed
        · rename_i next heap' located
          rw [← Multiset.cons_coe, Multiset.cons_add] at balanced'
          have rooted' : root ∈ slots' + (more + handles') := by
            rw [add_left_comm]
            exact Multiset.mem_add.mpr (Or.inr rooted)
          obtain ⟨leads', counted⟩ := leads.step balanced rooted' balanced'
            (fits other List.mem_cons_self) loaded located
          obtain ⟨passed, final, holder, same, ends, counted'⟩ := induction leads' counted
            (fun later member => fits later (List.mem_cons_of_mem _ member)) followed
          exact ⟨passed, final, holder, by simpa using same, ends, counted'⟩

end

/-- A chain of keys leads to the place that is found along it. -/
theorem leads_of_locateAlong (balanced : start.Balanced slots (↑(key :: keys) + handles))
    (rooted : root ∈ slots + handles) (branches : start.Branches root)
    (fits : ∀ other ∈ key :: keys, start.Fits root other)
    (located : start.locateAlong scopes root key keys = (.ok place, after)) :
    ∃ passed final holder, passed ++ [final] = key :: keys ∧
      Leads start after root passed final holder place ∧ after.Balanced slots (holder ::ₘ handles) := by
  rw [locateAlong] at located
  split at located
  · simp at located
  · rename_i first heap found
    have arrives : Arrives start start root [] root :=
      ⟨.refl branches [], rfl, Or.inl ⟨.refl start, rfl⟩⟩
    have rooted' : root ∈ slots + (keys + handles) := by
      rw [add_left_comm]
      exact Multiset.mem_add.mpr (Or.inr rooted)
    have fit := fits key List.mem_cons_self
    have split := balanced
    rw [← Multiset.cons_coe, Multiset.cons_add] at split
    obtain ⟨leads, counted⟩ := arrives.locate balanced split fit.foreign fit.alive rooted' rooted'
      fit.proper found
    exact leads.follow balanced rooted counted
      (fun other member => fits other (List.mem_cons_of_mem _ member)) located

end Heap

end ScriptEngine
