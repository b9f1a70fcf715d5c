import ScriptEngine.Proofs.Ownership.Seals

/-!
# Sealed ledgers

Every write goes to a container that no key leads to.  It leaves the keys of
all dicts as they are, apart from one that it may add to the container itself,
and that one equals none of the others.  So each step of a run keeps the keys that
dicts have, in their order and with their contents.
-/

namespace ScriptEngine

namespace Heap

variable {heap before after : Heap} {kept lent slots handles slots' handles' : Multiset Address}
variable {container dict key address : Address} {payload payload' : Payload}
variable {added removed : List Address}

/-! ## One container written to -/

/-- Counts apart, one container alone is different. -/
structure Replaces (before after : Heap) (container : Address) (payload : Payload) : Prop where
  cells : after.cells.size = before.cells.size
  written : after.payload? container = some payload
  spared : ∀ {address}, container ≠ address →
    after.payload? address = before.payload? address
  type : ∀ address, after.type address = before.type address

theorem replaces_setPayload {object : Object} (found : heap.get? container = some object) :
    heap.Replaces (((heap.enterSlots added).setPayload container payload).leaveSlots removed)
      container payload := by
  have entered := Remains.enterSlots heap added
  have left := Remains.leaveSlots ((heap.enterSlots added).setPayload container payload) removed
  have same : (heap.enterSlots added).payload? container = some object.payload := by
    rw [payload?_enterSlots, payload?_of_get? found]
  constructor
  · rw [left.cells, setPayload, size_modify, entered.cells]
  · rw [payload?_leaveSlots, payload?_setPayload_self same]
  · intro address different
    rw [payload?_leaveSlots, payload?_setPayload_of_ne different, payload?_enterSlots]
  · intro address
    rw [type_leaveSlots, type_setPayload, type_enterSlots]

/-- How the keys of a container change: some that are added may follow them, and
what is removed is no key. -/
structure Rekeys (heap : Heap) (payload payload' : Payload) (added removed : List Address) :
    Prop where
  order : ∀ {entries}, payload = .dict entries →
    ∃ later, payload' = .dict later ∧ entries.map Prod.fst <+: later.map Prod.fst
  keys : ∀ {later}, payload' = .dict later → ∀ key ∈ later.map Prod.fst,
    (∃ entries, payload = .dict entries ∧ key ∈ entries.map Prod.fst) ∨ key ∈ added
  distinct : ∀ {later}, payload' = .dict later → heap.Distinct later
  offered : ∀ address ∈ removed, address ∈ payload.offers

/-- Another object in a slot, which is not that of a key. -/
theorem rekeys_of_refills (refills : payload.Refills payload' added removed)
    (distinct : ∀ {entries}, payload = .dict entries → heap.Distinct entries) :
    heap.Rekeys payload payload' added removed := by
  cases refills with
  | @element elements position previous value stored =>
      constructor
      · intro entries same
        simp at same
      · intro later same
        simp at same
      · intro later same
        simp at same
      · intro address member
        rw [List.mem_singleton.mp member]
        exact List.mem_of_getElem? stored
  | @value entries position entry value stored =>
      constructor
      · intro entries' same
        obtain rfl := Payload.dict.inj same
        refine ⟨_, rfl, ?_⟩
        rw [map_fst_setEntry]
      · intro later same key member
        obtain rfl := Payload.dict.inj same
        rw [map_fst_setEntry] at member
        exact Or.inl ⟨entries, rfl, member⟩
      · intro later same
        obtain rfl := Payload.dict.inj same
        have keyed := @distinct entries rfl
        rwa [Distinct, ← map_fst_setEntry entries position value] at keyed
      · intro address member
        rw [List.mem_singleton.mp member]
        exact List.mem_map_of_mem (List.mem_of_getElem? stored)

theorem Distinct.append {entries : List (Address × Address)} (distinct : heap.Distinct entries)
    (absent : ∀ entry ∈ entries, heap.equals entry.1 key = false) (value : Address) :
    heap.Distinct (entries ++ [(key, value)]) := by
  unfold Distinct
  rw [List.map_append, List.pairwise_append]
  refine ⟨distinct, List.pairwise_singleton _ _, ?_⟩
  intro other member last lastly
  obtain ⟨entry, inside, rfl⟩ := List.mem_map.mp member
  rw [List.mem_singleton.mp lastly]
  exact absent entry inside

/-- One more entry at the end. -/
theorem rekeys_append {entries : List (Address × Address)} {value : Address}
    (distinct : heap.Distinct (entries ++ [(key, value)])) :
    heap.Rekeys (.dict entries) (.dict (entries ++ [(key, value)])) [key, value] [] := by
  constructor
  · intro entries' same
    obtain rfl := Payload.dict.inj same
    refine ⟨_, rfl, ?_⟩
    rw [List.map_append]
    exact List.prefix_append _ _
  · intro later same other member
    obtain rfl := Payload.dict.inj same
    rw [List.map_append, List.mem_append] at member
    rcases member with member | member
    · exact Or.inl ⟨entries, rfl, member⟩
    · exact Or.inr (List.mem_cons.mpr (Or.inl (List.mem_singleton.mp member)))
  · intro later same
    obtain rfl := Payload.dict.inj same
    exact distinct
  · intro address member
    simp at member

namespace Replaces

theorem keys_of_ne (replaces : before.Replaces after container payload')
    (different : container ≠ dict) : after.keys dict = before.keys dict :=
  keys_congr (replaces.spared different)

variable (replaces : before.Replaces after container payload')
  (found : before.payload? container = some payload)
  (rekeys : before.Rekeys payload payload' added removed)
include replaces found rekeys

theorem mem_keys (member : key ∈ after.keys dict) :
    (∃ dict, key ∈ before.keys dict) ∨ key ∈ added := by
  by_cases same : container = dict
  · subst same
    obtain ⟨later, written, inside⟩ := exists_entries_of_mem_keys member
    have equal := Option.some.inj (replaces.written.symm.trans written)
    rcases rekeys.keys equal key inside with ⟨entries, rfl, old⟩ | fresh
    · exact Or.inl ⟨container, by rwa [keys_of_payload? found]⟩
    · exact Or.inr fresh
  · rw [replaces.keys_of_ne same] at member
    exact Or.inl ⟨dict, member⟩

omit rekeys in
theorem isContainer (shape : payload.IsContainer) (shape' : after.IsContainer address) :
    before.IsContainer address := by
  by_cases same : container = address
  · subst same
    exact ⟨payload, found, shape⟩
  · obtain ⟨content, present, shaped⟩ := shape'
    rw [replaces.spared same] at present
    exact ⟨content, present, shaped⟩

variable (lends : container ∈ lent) (separated : before.Separated (added + kept) lent)
  (seals : before.Seals lent) (shape : payload.IsContainer)
include lends separated seals shape

omit rekeys in
/-- Keys, and what becomes one, read as before. -/
theorem alike (member : (∃ dict, key ∈ before.keys dict) ∨ key ∈ added) :
    Alike before after key := by
  have shaped : before.IsContainer container := ⟨payload, found, shape⟩
  have avoids : ¬ before.Reaches {key} container := by
    intro reaches
    rcases member with ⟨dict, old⟩ | fresh
    · exact seals dict key old container reaches shaped lends
    · have kept : key ∈ added + kept := Multiset.mem_add.mpr (Or.inl fresh)
      exact separated.avoids kept container reaches shaped lends
  apply Alike.of_avoids _ avoids
  intro address different
  exact ⟨replaces.spared different, replaces.type address⟩

theorem seals_after (unshared : before.Unshared slots) : after.Seals (removed + lent) := by
  intro dict key member address reaches shaped member'
  have origin := replaces.mem_keys found rekeys member
  have alike := replaces.alike found lends separated seals shape origin
  have reached := alike.reaches.mp reaches
  have shaped := replaces.isContainer found shape shaped
  rcases Multiset.mem_add.mp member' with gone | lent
  · have offered := rekeys.offered address gone
    rcases origin with ⟨dict, old⟩ | fresh
    · exact seals.not_reaches_of_offered unshared old lends found offered shaped reached
    · have kept : key ∈ added + kept := Multiset.mem_add.mpr (Or.inl fresh)
      have holds : before.Holds container address :=
        ⟨payload, found, Payload.mem_children_of_mem_offers offered⟩
      exact separated.not_reaches_of_holds kept lends holds shaped reached
  · rcases origin with ⟨dict, old⟩ | fresh
    · exact seals dict key old address reached shaped lent
    · have kept : key ∈ added + kept := Multiset.mem_add.mpr (Or.inl fresh)
      exact separated.avoids kept address reached shaped lent

theorem keyed (keyed : before.Keyed) : after.Keyed := by
  intro dict
  have compare : ∀ {left right}, left ∈ after.keys dict → right ∈ after.keys dict →
      after.equals left right = before.equals left right := by
    intro left right member member'
    have alike := replaces.alike found lends separated seals shape
      (replaces.mem_keys found rekeys member)
    have alike' := replaces.alike found lends separated seals shape
      (replaces.mem_keys found rekeys member')
    exact alike.equals alike'
  have distinct : (after.keys dict).Pairwise fun first second =>
      before.equals first second = false := by
    by_cases same : container = dict
    · subst same
      cases present : payload' with
      | scalar value => simp [keys, entries, replaces.written, present]
      | vector elements => simp [keys, entries, replaces.written, present]
      | dict later =>
          rw [keys_of_payload? (present ▸ replaces.written)]
          exact rekeys.distinct present
    · rw [replaces.keys_of_ne same]
      exact keyed dict
  apply distinct.imp_of_mem
  intro first second member member' different
  rwa [compare member member']

theorem keepsKeys (sound : before.Sound slots handles) (sound' : after.Sound slots' handles') :
    KeepsKeys before after := by
  constructor
  · exact replaces.cells.ge
  · intro address _ absent
    rw [replaces.spared, absent]
    rintro rfl
    simp [found] at absent
  · intro dict entries content old present
    by_cases same : container = dict
    · subst same
      obtain rfl := Option.some.inj (found.symm.trans old)
      obtain rfl := Option.some.inj (replaces.written.symm.trans present)
      exact rekeys.order rfl
    · rw [replaces.spared same, old, Option.some.injEq] at present
      exact ⟨entries, present.symm, List.prefix_rfl⟩
  · intro dict key member _
    have alike := replaces.alike found lends separated seals shape (Or.inl ⟨dict, member⟩)
    exact alike.tree sound.grounded sound'.grounded

end Replaces

end Heap

namespace Ledger

variable {ledger before after : Ledger} {licence : Licence}

theorem Orderly.sound (orderly : ledger.Orderly) :
    ledger.heap.Sound ledger.scopes.bound ledger.handles :=
  ⟨orderly.balanced.heap, orderly.separated.heap.acyclic⟩

/-- Orderly, where no two keys of a dict are equal and none leads to what is lent. -/
structure Sealed (ledger : Ledger) : Prop where
  exclusive : ledger.Exclusive
  keyed : ledger.heap.Keyed
  seals : ledger.heap.Seals ledger.lent

namespace Sealed

theorem sound (sealed : ledger.Sealed) : ledger.heap.Sound ledger.scopes.bound ledger.handles :=
  sealed.exclusive.orderly.sound

theorem craft_seals (sealed : ledger.Sealed) {heap : Heap} {given made owned : Multiset Address}
    (crafted : Heap.Crafted ledger.heap given heap made) (split : ledger.owned = given + owned) :
    heap.Seals ledger.lent := by
  have started : ledger.heap.Separated (0 + (given + owned + ledger.results)) ledger.lent := by
    rw [zero_add, ← split]
    exact sealed.exclusive.orderly.separated.heap
  have built := crafted (Heap.Seals.crafting ledger.results ledger.lent) ⟨started, sealed.seals⟩
  exact built.2

theorem withDefault (sealed : ledger.Sealed) (type : StaticType) :
    (ledger.withDefault type).Sealed :=
  ⟨sealed.exclusive.withDefault type, sealed.sound.keyed_newDefault type sealed.keyed,
    sealed.craft_seals (Heap.Crafted.newDefault ledger.heap type) (zero_add ledger.owned).symm⟩

/-- What is kept may be lent. -/
theorem seals_of_kept {address : Address} (sealed : ledger.Sealed)
    (member : address ∈ ledger.kept) : ledger.heap.Seals (address ::ₘ ledger.lent) :=
  sealed.seals.lend fun _ _ inside shape =>
    sealed.exclusive.orderly.separated.heap.not_reaches_of_key inside member shape

/-- A key leads to nothing that a walk comes across. -/
theorem seals_of_shows {address : Address} (sealed : ledger.Sealed)
    (shown : ledger.Shows address) : ledger.heap.Seals (address ::ₘ ledger.lent) := by
  apply sealed.seals.lend
  intro dict key member shape reaches
  rcases shown with bound | shared | ⟨container, shared, object, found, offered⟩
  · exact sealed.seals dict key member address reaches shape (mem_lent_of_bound bound)
  · exact sealed.seals dict key member address reaches shape (mem_lent_of_shared shared)
  · exact sealed.seals.not_reaches_of_offered sealed.exclusive.unshared member
      (mem_lent_of_shared shared) (Heap.payload?_of_get? found) offered shape reaches

/-- A step in which objects at most go. -/
theorem remains {lent : Multiset Address} (sealed : before.Sealed) (exclusive : after.Exclusive)
    (remains : Heap.Remains before.heap after.heap) (seals : before.heap.Seals lent)
    (less : ∀ {address}, address ∈ after.lent → address ∈ lent) :
    after.Sealed ∧ Heap.KeepsKeys before.heap after.heap := by
  have sound' := exclusive.orderly.sound
  refine ⟨⟨exclusive, remains.keyed sealed.sound sound' sealed.keyed, ?_⟩, ?_⟩
  · exact seals.remains remains fun member => Or.inl (less member)
  · exact remains.survives.keepsKeys sealed.sound sound'

/-- What is made carefully of what is owned. -/
theorem craft (never : ¬ licence.lends) (careful : ¬ licence.careless) (sealed : ledger.Sealed)
    {heap : Heap} {given made owned : Multiset Address}
    (makes : Heap.Makes licence.careless ledger.heap given heap made)
    (split : ledger.owned = given + owned) :
    Sealed { ledger with heap := heap, owned := made + owned } ∧
      Heap.KeepsKeys ledger.heap heap := by
  have exclusive := Exclusive.step never (.craft makes split) sealed.exclusive
  have sound := sealed.sound
  have sound' := exclusive.orderly.sound
  refine ⟨⟨exclusive, ?_, sealed.craft_seals makes.crafted split⟩, ?_⟩
  · rw [handles, split, add_assoc] at sound
    exact (makes.fashioned.resolve_left careful).keyed sound sealed.keyed
  · exact makes.crafted.survives.keepsKeys sealed.sound sound'

theorem write {container : Address} {object : Object} {payload : Payload}
    {added removed : List Address} {owned : Multiset Address} (sealed : ledger.Sealed)
    (shared : container ∈ ledger.shared) (found : ledger.heap.get? container = some object)
    (shape : object.payload.IsContainer)
    (rekeys : ledger.heap.Rekeys object.payload payload added removed)
    (given : ledger.owned = added + owned)
    (exclusive : Exclusive { ledger with
      heap := ((ledger.heap.enterSlots added).setPayload container payload).leaveSlots removed
      owned := owned
      shared := removed + ledger.shared }) :
    Sealed { ledger with
      heap := ((ledger.heap.enterSlots added).setPayload container payload).leaveSlots removed
      owned := owned
      shared := removed + ledger.shared } ∧
    Heap.KeepsKeys ledger.heap
      (((ledger.heap.enterSlots added).setPayload container payload).leaveSlots removed) := by
  have replaces := @Heap.replaces_setPayload ledger.heap container payload added removed object found
  have present := Heap.payload?_of_get? found
  have lends : container ∈ ledger.lent := Multiset.mem_add.mpr (Or.inl shared)
  have separated : ledger.heap.Separated (added + (owned + ledger.results)) ledger.lent := by
    have apart := sealed.exclusive.orderly.separated.heap
    rwa [kept, given, add_assoc] at apart
  have sound := sealed.sound
  have sound' := exclusive.orderly.sound
  refine ⟨⟨exclusive, ?_, ?_⟩, ?_⟩
  · exact replaces.keyed present rekeys lends separated sealed.seals shape sealed.keyed
  · have seals := replaces.seals_after present rekeys lends separated sealed.seals shape
      sealed.exclusive.unshared
    rwa [lent, ← add_assoc] at seals
  · exact replaces.keepsKeys present rekeys lends separated sealed.seals shape sound sound'

theorem payload?_withDefault {address : Address} {payload : Payload} (type : StaticType)
    (found : ledger.heap.payload? address = some payload) :
    (ledger.withDefault type).heap.payload? address = some payload := by
  have old := Heap.lt_size_of_payload? found
  rw [Ledger.withDefault, Heap.newDefault, Heap.payload?_allocate, if_neg (Nat.ne_of_lt old), found]

/-- The key of a new entry equals none of those that are there, also when the value
has been made. -/
theorem distinct_withDefault {dict key : Address} {entries : List (Address × Address)}
    (sealed : ledger.Sealed) (type : StaticType) (value : Address)
    (payload : ledger.heap.payload? dict = some (.dict entries))
    (absent : ledger.heap.findEntry? entries key = none) (given : key ∈ ledger.owned) :
    (ledger.withDefault type).heap.Distinct (entries ++ [(key, value)]) := by
  have made := sealed.withDefault type
  have survives : ledger.heap.Survives (ledger.withDefault type).heap :=
    (Heap.Crafted.newDefault ledger.heap type).survives
  have still := payload?_withDefault type payload
  have distinct := made.keyed dict
  rw [Heap.keys_of_payload? still] at distinct
  apply Heap.Distinct.append distinct
  intro entry member
  rw [ Heap.findEntry?, List.findIdx?_eq_none_iff] at absent
  have listed : entry.1 ∈ ledger.heap.keys dict := by
    rw [Heap.keys_of_payload? payload]
    exact List.mem_map_of_mem member
  have alike := survives.alike_key sealed.sound made.sound listed (by simp [still])
  have alike' : Heap.Alike ledger.heap (ledger.withDefault type).heap key := by
    have handled : key ∈ ledger.handles := by simp [handles, given]
    have handled' : key ∈ (ledger.withDefault type).handles := by
      simp [handles, Ledger.withDefault, given]
    obtain ⟨object, alive⟩ := made.sound.balanced.alive (Multiset.mem_add.mpr (Or.inr handled'))
    apply survives.alike sealed.sound.balanced made.sound.balanced
    · exact sealed.sound.balanced.lt_size (Multiset.mem_add.mpr (Or.inr handled))
    · simp [Heap.payload?_of_get? alive]
  rw [alike.equals alike']
  exact absent entry member

theorem extend {dict key : Address} {entries : List (Address × Address)}
    {owned : Multiset Address} (sealed : ledger.Sealed) (shared : dict ∈ ledger.shared)
    (payload : ledger.heap.payload? dict = some (.dict entries))
    (absent : ledger.heap.findEntry? entries key = none) (given : ledger.owned = key ::ₘ owned)
    (exclusive : Exclusive { ledger with
      heap := ledger.heap.createEntry dict key entries
      owned := owned }) :
    Sealed { ledger with
      heap := ledger.heap.createEntry dict key entries
      owned := owned } ∧
    Heap.KeepsKeys ledger.heap (ledger.heap.createEntry dict key entries) := by
  have made := sealed.withDefault ((ledger.heap.type dict).parameter 1)
  have keeps : Heap.KeepsKeys ledger.heap _ :=
    (Heap.Crafted.newDefault ledger.heap _).survives.keepsKeys sealed.sound made.sound
  have still := payload?_withDefault ((ledger.heap.type dict).parameter 1) payload
  obtain ⟨object, alive, same⟩ := Heap.payload?_eq_some_iff.mp still
  have distinct := sealed.distinct_withDefault ((ledger.heap.type dict).parameter 1)
    (ledger.heap.newDefault ((ledger.heap.type dict).parameter 1)).1 payload absent (by simp [given])
  have rekeys := Heap.rekeys_append distinct
  rw [← same] at rekeys
  have taken : (ledger.withDefault ((ledger.heap.type dict).parameter 1)).owned =
      ([key, (ledger.heap.newDefault ((ledger.heap.type dict).parameter 1)).1] : List Address) +
        owned := by
    rw [Ledger.withDefault, given, Multiset.singleton_add, Multiset.cons_swap]
    simp [← Multiset.cons_coe]
  have shape : object.payload.IsContainer := by
    rw [same]
    exact trivial
  have written := made.write shared alive shape rekeys taken
  rw [Multiset.coe_nil, zero_add] at written
  obtain ⟨last, keeps'⟩ := written exclusive
  exact ⟨last, keeps.trans keeps'⟩

/-- Each step keeps the keys of dicts. -/
theorem step_keepsKeys (never : ¬ licence.lends) (careful : ¬ licence.careless)
    (step : Step licence before after) (sealed : before.Sealed) :
    after.Sealed ∧ Heap.KeepsKeys before.heap after.heap := by
  have exclusive := Exclusive.step never step sealed.exclusive
  have seals := sealed.seals
  cases step with
  | craft makes split => exact sealed.craft never careful makes split
  | cache value =>
      have makes := @Heap.Fashioned.makes licence.careless _ _ _ _
        (Heap.Fashioned.newScalar before.heap value)
      obtain ⟨made, keeps⟩ := sealed.craft never careful makes (zero_add _).symm
      have simple : ¬ (before.heap.newScalar value).2.IsContainer
          (before.heap.newScalar value).1 :=
        Heap.not_isContainer_of_scalar? (before.heap.scalar?_newScalar value)
      have lend := made.seals.lend fun _ _ _ shape => absurd shape simple
      obtain ⟨last, keeps'⟩ := made.remains exclusive (Heap.Remains.retain _ _) lend (by
        intro address member
        simpa [lent, or_left_comm] using member)
      exact ⟨last, keeps.trans keeps'⟩
  | duplicate scalar =>
      exact sealed.remains exclusive (Heap.Remains.retain _ _) seals fun member => member
  | @share address shown =>
      have lend := sealed.seals_of_shows shown
      refine sealed.remains exclusive (Heap.Remains.retain _ _) lend ?_
      intro other member
      simpa [lent] using member
  | @lower address owned given =>
      have owns : address ∈ before.kept := by simp [kept, given]
      have lend := sealed.seals_of_kept owns
      refine sealed.remains exclusive (Heap.Remains.refl _) lend ?_
      intro other member
      simpa [lent] using member
  | giveBack given =>
      refine sealed.remains exclusive (Heap.Remains.release _ _) seals ?_
      intro other member
      simp only [lent, given, Multiset.mem_add, Multiset.mem_cons] at member ⊢
      tauto
  | @bind hand lent position name value previous? inside previous given allowed =>
      cases lent with
      | true => exact absurd (allowed rfl) never
      | false =>
          have remains := (Heap.Remains.enterSlot before.heap value).trans
            (Heap.Remains.leaveSlots _ previous?.toList)
          have owned : value ∈ before.kept := by
            rw [kept, given]
            exact Multiset.mem_add.mpr (Or.inl (Multiset.mem_cons_self _ _))
          refine sealed.remains exclusive remains (sealed.seals_of_kept owned) ?_
          intro other member
          have rebound := @Scopes.mem_of_rebound _ _ _ _ value other previous
          rw [Hand.carry_false] at given
          simp only [Ledger.lent, given, Hand.own, Hand.shareAll, Multiset.mem_add,
            Multiset.mem_cons, Multiset.mem_coe] at member ⊢
          tauto
  | push =>
      refine sealed.remains exclusive (Heap.Remains.refl _) seals ?_
      intro other member
      simpa [lent] using member
  | @pop frame last =>
      refine sealed.remains exclusive (Heap.Remains.leaveSlots _ _) seals ?_
      intro other member
      simp only [lent, Scopes.bound_dropFrame last, Multiset.mem_add] at member ⊢
      tauto
  | skip depth =>
      refine sealed.remains exclusive (Heap.Remains.refl _) seals ?_
      intro other member
      simpa [lent] using member
  | @amend container object payload added removed owned shared found refills given =>
      refine sealed.write shared found refills.exchange.1 ?_ given exclusive
      apply Heap.rekeys_of_refills refills
      intro entries same
      have distinct := sealed.keyed container
      rwa [Heap.keys_of_payload? (same ▸ Heap.payload?_of_get? found)] at distinct
  | extend shared payload absent given =>
      exact sealed.extend shared payload absent given exclusive
  | keep given =>
      exact sealed.remains exclusive (Heap.Remains.setPinned _ _ _) seals fun member => member
  | take given =>
      exact sealed.remains exclusive (Heap.Remains.setPinned _ _ _) seals fun member => member
  | handBack given within =>
      exact sealed.remains exclusive
        ((Heap.Remains.retain _ _).trans (Heap.Remains.releaseAll _ _)) seals fun member => member

end Sealed

end Ledger

end ScriptEngine
