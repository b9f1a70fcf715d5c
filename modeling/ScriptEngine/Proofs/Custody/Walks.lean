import ScriptEngine.Proofs.Custody.Operands

/-!
# Walks to stored data

Names and indices lead to objects and places inside storage.  A walk has a
shared handle on each container it stands on, an assignment stores an owned
value where a walk has led.
-/

namespace ScriptEngine

namespace Heap

variable {heap : Heap} {container key value : Address}

theorem offered_of_valueAt (found : heap.valueAt container key = .ok value) :
    ∃ object, heap.get? container = some object ∧ value ∈ object.payload.offers := by
  unfold valueAt at found
  split at found
  · simp at found
  · rename_i position _
    split at found
    · rename_i element stored
      cases found
      exact offered_of_element? stored
    · simp at found
  · rename_i position _
    split at found
    · rename_i entry stored
      cases found
      exact offered_of_entry? stored
    · simp at found
  · simp at found

/-- A place inside a container has one handle, on the container. -/
theorem handles_of_locate {access : Access} {place : Place}
    (located : (heap.locate container key access).1 = .ok place) :
    place.handles = [container] := by
  unfold locate at located
  split at located
  · simp at located
  · cases located
    rfl
  · cases located
    rfl
  · cases access with
    | read => simp at located
    | write =>
        cases located
        rfl

/-- A key is absent from a dict that has no entry for it. -/
theorem dict_of_absent (absent : heap.spot container key = .ok .absent) :
    heap.payload? container = some (.dict (heap.entries container)) ∧
      heap.findEntry? (heap.entries container) key = none := by
  unfold spot at absent
  split at absent
  · rename_i elements _
    split at absent
    · rename_i payload _
      cases position : vectorPosition payload elements.length with
      | error cause => simp [position, Except.map] at absent
      | ok position => simp [position, Except.map] at absent
    · simp at absent
  · rename_i pairs payload
    split at absent
    · simp at absent
    · rename_i missing
      rw [entries, payload]
      exact ⟨rfl, missing⟩
  · simp at absent

end Heap

namespace Scopes

theorem skips_put (scopes : Scopes) (position : Nat) (name : Name) (value : Address) :
    (scopes.modifyFrame position (·.put name value)).skips = scopes.skips := by
  apply List.ext_getElem?
  intro index
  simp only [skips, frames_modifyFrame, List.getElem?_map, List.getElem?_modify]
  cases scopes.frames[index]? with
  | none => rfl
  | some frame =>
      by_cases same : position = index
      · simp [same]
      · simp [same]

end Scopes

namespace Place

/-- What a place that can be loaded is: a binding, or a slot of a container
that takes another object in the place of the one that is there. -/
inductive Leads (place : Place) (scopes : Scopes) (heap : Heap) (previous : Address) :
    Prop where
  | binding {depth : Nat} {name : Name} :
      place = .binding depth name → scopes.get? depth name = some previous →
      Leads place scopes heap previous
  | inside {container : Address} {object : Object} (replaced : Address → Payload) :
      place.handles = [container] →
      heap.get? container = some object → previous ∈ object.payload.offers →
      (∀ value, object.payload.Refills (replaced value) [value] [previous]) →
      (∀ scopes heap value, heap.payload? container = some object.payload →
        place.point scopes heap value = (scopes, heap.setPayload container (replaced value))) →
      Leads place scopes heap previous

variable {place : Place} {scopes : Scopes} {heap : Heap} {previous : Address}

theorem leads_of_load (loaded : place.load scopes heap = .ok previous) :
    place.Leads scopes heap previous := by
  cases place with
  | binding depth name =>
      simp only [load] at loaded
      split at loaded
      · rename_i found
        cases loaded
        exact .binding rfl found
      · simp at loaded
  | element vector position =>
      simp only [load] at loaded
      split at loaded
      · rename_i elements payload
        split at loaded
        · rename_i stored
          cases loaded
          obtain ⟨object, alive, same⟩ := Heap.payload?_eq_some_iff.mp payload
          apply Leads.inside (fun value => .vector (elements.set position value)) rfl alive
          · rw [same]
            exact List.mem_of_getElem? stored
          · intro value
            rw [same]
            exact .element value stored
          · intro scopes heap value unchanged
            simp [point, unchanged, same]
        · simp at loaded
      · simp at loaded
  | entry dict position =>
      simp only [load] at loaded
      split at loaded
      · rename_i entries payload
        split at loaded
        · rename_i entry stored
          cases loaded
          obtain ⟨object, alive, same⟩ := Heap.payload?_eq_some_iff.mp payload
          apply Leads.inside (fun value => .dict (Heap.setEntry entries position value)) rfl alive
          · rw [same]
            exact List.mem_map_of_mem (List.mem_of_getElem? stored)
          · intro value
            rw [same]
            exact .value value stored
          · intro scopes heap value unchanged
            simp [point, unchanged, same]
        · simp at loaded
      · simp at loaded

theorem shown_of_load {hand : Hand} {state : State}
    (loaded : place.load state.scopes state.heap = .ok previous)
    (handles : ∀ container ∈ place.handles, container ∈ hand.shared) :
    (state.ledger hand).Shows previous := by
  cases leads_of_load loaded with
  | binding _ found => exact Or.inl (Scopes.mem_bound_of_get? found)
  | @inside container object _ only alive offered _ _ =>
      refine Or.inr (Or.inr ⟨container, ?_, object, alive, offered⟩)
      apply handles
      rw [only]
      exact List.mem_singleton_self container

/-- What is stored in a place enters the ledger there, and the object that
was there is handed out. -/
theorem store_step {licence : Licence} {ledger : Ledger} {value : Address}
    {owned : Multiset Address}
    (handles : ∀ container ∈ place.handles, container ∈ ledger.shared)
    (loaded : place.load ledger.scopes ledger.heap = .ok previous)
    (given : ledger.owned = value ::ₘ owned) :
    ∃ scopes heap,
      place.store ledger.scopes ledger.heap value = (.ok previous, scopes, heap) ∧
      scopes.skips = ledger.scopes.skips ∧
      Ledger.Step licence ledger { ledger with
        heap := heap
        scopes := scopes
        owned := owned
        shared := previous ::ₘ ledger.shared } := by
  cases leads_of_load loaded with
  | @binding depth name same found =>
      subst same
      refine ⟨_, _, by rw [store, loaded]; rfl, Scopes.skips_put _ _ _ _, ?_⟩
      have taken : ledger.toHand = (Hand.mk owned ledger.shared).carry false value := by
        rw [Hand.carry_false, Hand.own, ← given]
      exact Ledger.Step.bind (Scopes.lt_depth_of_get? found) found taken (by simp)
  | @inside container object replaced only alive offered refills pointed =>
      have payload : (ledger.heap.enterSlot value).payload? container = some object.payload := by
        rw [Heap.payload?_enterSlot, Heap.payload?_of_get? alive]
      refine ⟨_, _, by rw [store, loaded], by rw [pointed _ _ _ payload], ?_⟩
      rw [pointed _ _ _ payload]
      have member : container ∈ ledger.shared := by
        apply handles
        rw [only]
        exact List.mem_singleton_self container
      exact @Ledger.Step.amend licence ledger container object (replaced value) [value] [previous]
        owned member alive (refills value) given

end Place

namespace Assertion.Stable

variable {licence : Licence} {holds : Assertion} {hand : Hand} {state : State}

/-- An entry for a key that is given, with a new value. -/
theorem createEntry (stable : Stable licence holds) {container key : Address}
    {entries : List (Address × Address)} (kept : holds (hand.own key) state)
    (shared : container ∈ hand.shared)
    (payload : state.heap.payload? container = some (.dict entries))
    (absent : state.heap.findEntry? entries key = none) :
    holds hand { state with heap := state.heap.createEntry container key entries } :=
  stable.onHeap kept (.extend shared payload absent rfl)

/-- An element is shared like the container it was found in. -/
theorem readElement (stable : Stable licence holds) {container key : Address}
    (kept : holds (hand.own key) state) (shared : container ∈ hand.shared) :
    holds (Hand.either hand.share hand (state.heap.readElement container key).1)
      { state with heap := (state.heap.readElement container key).2 } := by
  unfold Heap.readElement
  cases found : state.heap.valueAt container key with
  | error cause => exact stable.releaseOne kept
  | ok value =>
      obtain ⟨object, alive, offered⟩ := Heap.offered_of_valueAt found
      have walked := stable.share kept
        (Or.inr (Or.inr ⟨container, shared, object, alive, offered⟩))
      rw [Hand.share_own] at walked
      exact stable.releaseOne walked

/-- A place inside a container has a handle on it. -/
theorem locate (stable : Stable licence holds) {container key : Address} (access : Access)
    (kept : holds (hand.own key) state) (shared : container ∈ hand.shared) :
    holds (Hand.either (fun place => hand.shareAll place.handles) hand
        (state.heap.locate container key access).1)
      { state with heap := (state.heap.locate container key access).2 } := by
  unfold Heap.locate
  split
  · exact stable.releaseOne kept
  · have walked := stable.share (stable.releaseOne kept) (Or.inr (Or.inl shared))
    simp only [Hand.either, Place.handles, Hand.shareAll_cons, Hand.shareAll_nil]
    exact walked
  · have walked := stable.share (stable.releaseOne kept) (Or.inr (Or.inl shared))
    simp only [Hand.either, Place.handles, Hand.shareAll_cons, Hand.shareAll_nil]
    exact walked
  · rename_i absent
    cases access with
    | read => exact stable.releaseOne kept
    | write =>
        obtain ⟨payload, missing⟩ := Heap.dict_of_absent absent
        have created := stable.createEntry kept shared payload missing
        have walked := stable.share created (Or.inr (Or.inl shared))
        simp only [Hand.either, Place.handles, Hand.shareAll_cons, Hand.shareAll_nil]
        exact walked

end Assertion.Stable

namespace Evaluation

variable {licence : Licence} {holds : Assertion} {setup : Setup} {operands : Operands}

/-! ## Variables and indices -/

theorem shows_of_lookup? {state : State} {hand : Hand} {name : Name} {address : Address}
    (found : state.lookup? name = some address) : (state.ledger hand).Shows address := by
  obtain ⟨position, _, bound⟩ := Scopes.get?_of_lookup? found
  exact Or.inl (Scopes.mem_bound_of_get? bound)

theorem shareVariable_triple (stable : holds.Stable licence) (name : Name) (hand : Hand) :
    Triple (holds hand) (shareVariable setup name)
      (fun address => holds (hand.share address)) (holds hand) := by
  intro state held
  unfold shareVariable
  cases found : state.lookup? name with
  | some address => exact stable.share held (shows_of_lookup? found)
  | none => exact held

theorem variableCopy_triple (stable : holds.Stable licence) (name : Name) (hand : Hand) :
    Triple (holds hand) (variableCopy setup name)
      (fun address => holds (hand.own address)) (holds hand) := by
  intro state held
  unfold variableCopy
  cases state.lookup? name with
  | some address =>
      have copied := stable.create (Heap.Fashioned.copy state.heap address).makes held
      exact copied
  | none => exact held

theorem readElement_triple (stable : holds.Stable licence) (container key : Address)
    (hand : Hand) :
    Triple (holds ((hand.share container).own key)) (readElement container key)
      (fun element => holds (hand.share element)) (holds hand) := by
  have walked : Triple (holds ((hand.share container).own key))
      (holding [container] (onHeap (·.readElement container key)))
      (fun result => holds (Hand.either hand.share hand result)) (holds hand) := by
    apply Triple.holdingShared stable
    intro state held
    show holds ((Hand.either hand.share hand
      (state.heap.readElement container key).1).shareAll [container])
        { state with heap := (state.heap.readElement container key).2 }
    have read := stable.readElement held (Multiset.mem_cons_self _ _)
    rw [Hand.shareAll_cons, Hand.shareAll_nil]
    cases result : (state.heap.readElement container key).1 with
    | error cause =>
        rw [result] at read
        exact read
    | ok value =>
        rw [result] at read
        simp only [Hand.either] at read ⊢
        rwa [Hand.share_share] at read
  exact Triple.bind walked fun result => Triple.give

theorem indexChain_triple (stable : holds.Stable licence) (sound : operands.Sound holds)
    (indices : List ExpressionId) (container : Address) (hand : Hand) :
    Triple (holds (hand.share container)) (indexChain setup operands container indices)
      (fun element => holds (hand.share element)) (holds hand) := by
  induction indices generalizing container with
  | nil => exact Triple.pure fun state held => held
  | cons index others induction =>
      apply Triple.bind
      · apply Triple.guardingShared stable
        rw [Hand.shareAll_cons, Hand.shareAll_nil]
        exact sound.evaluate index (hand.share container)
      · intro key
        apply Triple.bind
        · apply Triple.located
          exact readElement_triple stable container key hand
        · intro element
          exact induction element

theorem shareIndexed_triple (stable : holds.Stable licence) (sound : operands.Sound holds)
    (base : ExpressionId) (indices : List ExpressionId) (hand : Hand) :
    Triple (holds hand) (shareIndexed setup operands base indices)
      (fun element => holds (hand.share element)) (holds hand) := by
  apply Triple.bind (sound.share base hand)
  intro container
  exact indexChain_triple stable sound indices container hand

/-! ## Places -/

theorem loadPlace_of_ok {place : Place} {address : Address} {state : State}
    (loaded : place.load state.scopes state.heap = .ok address) :
    loadPlace place state = retain address state := by
  simp only [loadPlace, bind_run, read, loaded]
  rfl

theorem loadPlace_of_error {place : Place} {cause : Cause} {state : State}
    (loaded : place.load state.scopes state.heap = .error cause) :
    loadPlace place state = fail cause state := by
  simp only [loadPlace, bind_run, read, loaded]
  rfl

theorem loadPlace_triple (stable : holds.Stable licence) (place : Place) (hand : Hand)
    (handles : ∀ container ∈ place.handles, container ∈ hand.shared) :
    Triple (holds hand) (loadPlace place) (fun address => holds (hand.share address))
      (holds hand) := by
  apply Triple.bind Triple.read
  intro result
  apply Triple.bind (Triple.ofExcept fun state held => held.1)
  intro address
  apply Triple.share stable
  intro state held
  obtain ⟨⟨kept, viewed⟩, same⟩ := held
  exact ⟨kept, Place.shown_of_load (viewed.symm.trans same) handles⟩

theorem locateForWriting_triple (stable : holds.Stable licence) (container key : Address)
    (hand : Hand) (shared : container ∈ hand.shared) :
    Triple (holds (hand.own key)) (locateForWriting container key)
      (fun place state => holds (hand.shareAll place.handles) state ∧ place.handles = [container])
      (holds hand) := by
  intro state held
  have walked := stable.locate .write held shared
  have only := @Heap.handles_of_locate state.heap container key .write
  unfold locateForWriting
  rw [bind_run]
  simp only [onHeap, State.onHeap]
  generalize state.heap.locate container key .write = outcome at walked only
  obtain ⟨result, heap⟩ := outcome
  cases result with
  | error cause => exact walked
  | ok place => exact ⟨walked, only rfl⟩

/-- The place that an index leads to in a container. -/
theorem innerPlace_triple (stable : holds.Stable licence) (sound : operands.Sound holds)
    (index : ExpressionId) (container : Address) (hand : Hand) :
    Triple (holds (hand.share container))
      (holding [container] do
        let key ← operands.evaluate index
        located (setup.program.spanOf index) (locateForWriting container key))
      (fun place state => holds (hand.shareAll place.handles) state ∧ place.handles = [container])
      (holds hand) := by
  apply Triple.ensuring
  have walked : Triple (holds (hand.share container))
      (do
        let key ← operands.evaluate index
        located (setup.program.spanOf index) (locateForWriting container key))
      (fun place state => holds ((hand.share container).shareAll place.handles) state ∧
        place.handles = [container])
      (holds (hand.share container)) := by
    apply Triple.bind (sound.evaluate index _)
    intro key
    apply Triple.located
    exact locateForWriting_triple stable container key (hand.share container)
      (Multiset.mem_cons_self container _)
  apply walked.weaken
  · intro state held
    exact held
  · rintro place state ⟨held, only⟩
    refine ⟨?_, only⟩
    rw [Hand.shareAll_share, ← (hand.shareAll place.handles).shareAll_nil,
      ← Hand.shareAll_cons] at held
    exact stable.giveBack held
  · intro state held
    rw [← hand.shareAll_nil, ← Hand.shareAll_cons] at held
    exact stable.giveBack held

theorem placeChain_triple (stable : holds.Stable licence) (sound : operands.Sound holds)
    (indices : List ExpressionId) (place : Place) (hand : Hand) :
    Triple (holds (hand.shareAll place.handles)) (placeChain setup operands place indices)
      (fun place => holds (hand.shareAll place.handles)) (holds hand) := by
  induction indices generalizing place with
  | nil => exact Triple.pure fun state held => held
  | cons index others induction =>
      have walked : Triple (holds (hand.shareAll place.handles))
          (holding place.handles do
            let container ← loadPlace place
            holding [container] do
              let key ← operands.evaluate index
              located (setup.program.spanOf index) (locateForWriting container key))
          (fun next => holds (hand.shareAll next.handles)) (holds hand) := by
        apply Triple.holdingShared stable
        apply Triple.bind
        · apply loadPlace_triple stable place
          intro container member
          exact Multiset.mem_add.mpr (Or.inl member)
        · intro container
          apply (innerPlace_triple stable sound index container _).weaken
          · intro state held
            exact held
          · rintro next state ⟨held, _⟩
            rwa [Hand.shareAll_comm] at held
          · intro state held
            exact held
      apply Triple.bind walked
      intro next
      exact induction next

theorem bindingPlace_triple (name : Name) (hand : Hand) :
    Triple (holds hand) (bindingPlace setup name)
      (fun place => holds (hand.shareAll place.handles)) (holds hand) := by
  apply Triple.bind Triple.glance
  intro found
  cases found with
  | some depth =>
      apply Triple.pure
      intro state held
      rw [Place.handles, Hand.shareAll_nil]
      exact held
  | none => exact Triple.fail fun state held => held

theorem indexedPlace_triple (stable : holds.Stable licence) (sound : operands.Sound holds)
    (base : ExpressionId) (indices : List ExpressionId) (hand : Hand) :
    Triple (holds hand) (indexedPlace setup operands base indices)
      (fun place => holds (hand.shareAll place.handles)) (holds hand) := by
  apply Triple.bind (sound.target base hand)
  intro place
  exact placeChain_triple stable sound indices place hand

/-! ## Assignments -/

theorem storeIn_of_store {place : Place} {value previous : Address} {state : State}
    {scopes : Scopes} {heap : Heap}
    (stored : place.store state.scopes state.heap value = (.ok previous, scopes, heap)) :
    storeIn place value state =
      .value () (State.releaseAll { state with scopes := scopes, heap := heap } [previous]) := by
  simp only [storeIn, bind, Evaluation.bind, State.onStorage, stored]
  rfl

theorem storeIn_of_error {place : Place} {value : Address} {state : State} {cause : Cause}
    (failed : place.load state.scopes state.heap = .error cause) :
    storeIn place value state = .failure (.of cause) (state.releaseAll [value]) := by
  have stored : place.store state.scopes state.heap value =
      (.error cause, state.scopes, state.heap) := by
    rw [Place.store, failed]
  simp only [storeIn, bind, Evaluation.bind, State.onStorage, stored]
  rfl

theorem storeIn_triple (stable : holds.Stable licence) (place : Place) (value : Address)
    (hand : Hand) (handles : ∀ container ∈ place.handles, container ∈ hand.shared) :
    Triple (holds (hand.own value)) (storeIn place value) (fun _ => holds hand)
      (holds hand) := by
  intro state held
  cases loaded : place.load state.scopes state.heap with
  | error cause =>
      rw [storeIn_of_error loaded]
      rw [← hand.ownAll_nil, ← Hand.ownAll_cons] at held
      exact stable.release held
  | ok previous =>
      obtain ⟨scopes, heap, stored, skips, step⟩ := @Place.store_step place previous licence
        (state.ledger (hand.own value)) value hand.owned handles loaded rfl
      have kept : holds (hand.shareAll [previous]) { state with scopes := scopes, heap := heap } := by
        rw [Hand.shareAll_cons, Hand.shareAll_nil]
        exact stable.step held step ⟨rfl, rfl, skips⟩
      rw [storeIn_of_store stored]
      exact stable.giveBack kept

theorem assign_triple (stable : holds.Stable licence) (sound : operands.Sound holds)
    (target value : ExpressionId) (hand : Hand) :
    Triple (holds hand) (assign operands target value)
      (fun result => holds (hand.own result)) (holds hand) := by
  apply Triple.bind (sound.target target hand)
  intro place
  apply Triple.holdingShared stable
  apply Triple.bind (sound.evaluate value _)
  intro stored
  apply Triple.bind (Triple.copy stable stored)
  intro result
  apply Triple.bind
  · apply Triple.guardingHeld stable
    rw [Hand.ownAll_cons, Hand.ownAll_nil, Hand.own_own]
    apply storeIn_triple stable place stored
    intro container member
    exact Multiset.mem_add.mpr (Or.inl member)
  · intro _
    exact Triple.pure fun state held => held

end Evaluation

end ScriptEngine
