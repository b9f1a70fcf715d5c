import ScriptEngine.Proofs.Hosting.Sessions
import ScriptEngine.Workbench.Basic

/-!
# Workbenches

Single operations on values, slots, places, scopes and calls keep every slot
and every handle counted, whatever their order.  The slots that are held by name
and those of frames in no stack are counted beside those of scopes and containers.
-/

namespace ScriptEngine

/-- Balanced beside some slots. -/
def Beside (slots : Multiset Address) : Assertion :=
  fun hand state => (state.ledger hand).BalancedBeside slots

namespace Beside

variable {slots : Multiset Address} {hand hand' : Hand} {state : State}

theorem stable (slots : Multiset Address) : (Beside slots).Stable ⟨True, True⟩ where
  step balanced step _ := Ledger.BalancedBeside.step slots step balanced

/-- Only the number of handles counts. -/
theorem regroup (beside : Beside slots hand state)
    (same : hand'.owned + hand'.shared = hand.owned + hand.shared) : Beside slots hand' state := by
  refine ⟨beside.distinct, ?_⟩
  have regrouped : (state.ledger hand').handles = (state.ledger hand).handles := by
    simp only [Ledger.handles, State.ledger, ← add_assoc, same]
  rw [regrouped]
  exact beside.heap

theorem retain {address : Address} (beside : Beside slots hand state)
    (known : address ∈ state.heap.stored + (state.scopes.bound + slots) +
      (state.ledger hand).handles) :
    Beside slots (hand.own address) { state with heap := state.heap.retain address } := by
  refine ⟨beside.distinct, ?_⟩
  have handles : ∀ state : State, (state.ledger (hand.own address)).handles =
      address ::ₘ (state.ledger hand).handles := by
    intro state
    exact Multiset.cons_add _ _ _
  rw [handles]
  exact beside.heap.retain known

theorem known_of_shows {address : Address} (shown : (state.ledger hand).Shows address) :
    address ∈ state.heap.stored + (state.scopes.bound + slots) +
      (state.ledger hand).handles := by
  have known := Ledger.mem_of_shows shown
  simp only [Multiset.mem_add] at known ⊢
  tauto

end Beside

/-! ## Taking out what is held by name -/

/-- What the things consist of that are held by name, those of one name apart. -/
theorem flatMap_of_lookup {α : Type} {entries : List (String × α)}
    (distinct : (entries.map Prod.fst).Nodup) (name : String) (parts : α → List Address) :
    ((entries.map Prod.snd).flatMap parts : Multiset Address) =
      ((entries.lookup name).toList.flatMap parts : List Address) +
        (((entries.filter (·.1 != name)).map Prod.snd).flatMap parts : List Address) := by
  rw [Multiset.coe_add, ← List.flatMap_append]
  exact Multiset.coe_eq_coe.mpr ((perm_of_lookup distinct name).flatMap_right parts)

namespace Holdings

/-- Some of what is held by name has been taken out, and the rest is left. -/
structure Parted (holdings rest : Holdings) (taken : Multiset Address) : Prop where
  values : (holdings.map Prod.snd : Multiset Address) = taken + (rest.map Prod.snd : List Address)
  distinct : (rest.map Prod.fst).Nodup

variable {holdings middle rest : Holdings} {first second : Multiset Address}

theorem Parted.trans (one : holdings.Parted middle first) (other : middle.Parted rest second) :
    holdings.Parted rest (first + second) where
  values := by rw [one.values, other.values, add_assoc]
  distinct := other.distinct

theorem parted_erase (distinct : (holdings.map Prod.fst).Nodup) (name : String) :
    holdings.Parted (holdings.erase name) (holdings.get? name).toList where
  values := Multiset.coe_eq_coe.mpr (perm_of_lookup distinct name)
  distinct := distinct.sublist (List.filter_sublist.map _)

theorem parted_erase_of_get? {name : String} {address : Address}
    (distinct : (holdings.map Prod.fst).Nodup) (found : holdings.get? name = some address) :
    holdings.Parted (holdings.erase name) {address} := by
  have parted := parted_erase distinct name
  rwa [found] at parted

end Holdings

namespace Workbench

open Holdings in
theorem parted_takeSlots {slots rest : Holdings} {names : List String} {addresses : List Address}
    (distinct : (slots.map Prod.fst).Nodup)
    (taken : takeSlots slots names = some (addresses, rest)) : slots.Parted rest addresses := by
  induction names generalizing slots addresses with
  | nil =>
      cases taken
      exact ⟨(zero_add _).symm, distinct⟩
  | cons name others induction =>
      simp only [takeSlots, Option.bind_eq_bind, Option.bind_eq_some_iff] at taken
      obtain ⟨address, found, ⟨more, after⟩, moreTaken, given⟩ := taken
      cases given
      have parted := parted_erase_of_get? distinct found
      exact parted.trans (induction parted.distinct moreTaken)

open Holdings in
theorem parted_takeEntries {slots rest : Holdings} {names : List (String × String)}
    {pairs : List (Address × Address)} (distinct : (slots.map Prod.fst).Nodup)
    (taken : takeEntries slots names = some (pairs, rest)) :
    slots.Parted rest (Payload.dict pairs).children := by
  induction names generalizing slots pairs with
  | nil =>
      cases taken
      exact ⟨(zero_add _).symm, distinct⟩
  | cons name others induction =>
      simp only [takeEntries, Option.bind_eq_bind, Option.bind_eq_some_iff] at taken
      obtain ⟨key, keyFound, value, valueFound, ⟨more, after⟩, moreTaken, given⟩ := taken
      cases given
      have keyParted := parted_erase_of_get? distinct keyFound
      have valueParted := parted_erase_of_get? keyParted.distinct valueFound
      have parted := (keyParted.trans valueParted).trans
        (induction valueParted.distinct moreTaken)
      exact parted

/-- The slots that a container is made of are taken out, each once. -/
theorem Assembly.parted {slots rest : Holdings} {assembly : Assembly} {payload : Payload}
    (distinct : (slots.map Prod.fst).Nodup)
    (made : assembly.payload? slots = some (payload, rest)) :
    slots.Parted rest payload.children := by
  cases assembly with
  | vector element elements =>
      obtain ⟨⟨addresses, left⟩, taken, given⟩ := Option.map_eq_some_iff.mp made
      cases given
      exact parted_takeSlots distinct taken
  | dict key value entries =>
      obtain ⟨⟨pairs, left⟩, taken, given⟩ := Option.map_eq_some_iff.mp made
      cases given
      exact parted_takeEntries distinct taken

variable {bench : Workbench}

/-- The part of a workbench that runs have as well. -/
def state (bench : Workbench) : State where
  heap := bench.heap
  scopes := bench.scopes
  calls := bench.calls
  loops := bench.loops

/-- The handles that are held by name, those of places included. -/
def held (bench : Workbench) : Multiset Address :=
  (bench.handles.map Prod.snd : List Address) +
    ((bench.places.map Prod.snd).flatMap Place.handles : List Address)

/-- The slots that are held by name, those of frames included. -/
def slotted (bench : Workbench) : Multiset Address :=
  (bench.slots.map Prod.snd : List Address) +
    ((bench.frames.map Prod.snd).flatMap ScopeFrame.values : List Address)

/-- Nothing of one kind is held twice under a name, and no frame binds a name twice. -/
structure Distinct (bench : Workbench) : Prop where
  handles : (bench.handles.map Prod.fst).Nodup
  places : (bench.places.map Prod.fst).Nodup
  slots : (bench.slots.map Prod.fst).Nodup
  frames : (bench.frames.map Prod.fst).Nodup
  bindings : ∀ entry ∈ bench.frames, entry.2.Distinct

theorem Distinct.of_frame? {name : String} {frame : ScopeFrame} (distinct : bench.Distinct)
    (found : bench.frame? name = some frame) : frame.Distinct := by
  obtain ⟨earlier, later, split, _⟩ := List.lookup_eq_some_iff.mp found
  exact distinct.bindings (name, frame) (by simp [split])

/-- Every slot and every handle is counted, some beside those that are held by
name. -/
structure Counted (pending extra : Multiset Address) (bench : Workbench) : Prop where
  distinct : bench.Distinct
  beside : Beside (pending + bench.slotted) ⟨extra, bench.held⟩ bench.state

variable {pending extra : Multiset Address}

namespace Counted

/-- Nothing that is held by name is different. -/
theorem act {after : Workbench} {pending' extra' : Multiset Address}
    (counted : bench.Counted pending extra)
    (beside : Beside (pending' + bench.slotted) ⟨extra', bench.held⟩ after.state)
    (handles : after.handles = bench.handles) (places : after.places = bench.places)
    (slots : after.slots = bench.slots) (frames : after.frames = bench.frames) :
    after.Counted pending' extra' := by
  refine ⟨⟨?_, ?_, ?_, ?_, ?_⟩, ?_⟩
  · rw [handles]
    exact counted.distinct.handles
  · rw [places]
    exact counted.distinct.places
  · rw [slots]
    exact counted.distinct.slots
  · rw [frames]
    exact counted.distinct.frames
  · rw [frames]
    exact counted.distinct.bindings
  · rw [slotted, held, handles, places, slots, frames]
    exact beside

/-- Other names for the same slots and handles. -/
theorem regroup {pending' extra' : Multiset Address} {after : Workbench}
    (counted : bench.Counted pending extra) (state : after.state = bench.state)
    (slotted : pending' + after.slotted = pending + bench.slotted)
    (held : extra' + after.held = extra + bench.held) (distinct : after.Distinct) :
    after.Counted pending' extra' := by
  refine ⟨distinct, ?_⟩
  rw [state, slotted]
  exact counted.beside.regroup held

theorem retain {address : Address} (counted : bench.Counted pending extra)
    (known : address ∈ bench.heap.stored + (bench.scopes.bound + (pending + bench.slotted)) +
      (bench.state.ledger ⟨extra, bench.held⟩).handles) :
    { bench with heap := bench.heap.retain address }.Counted pending (address ::ₘ extra) :=
  counted.act (counted.beside.retain known) rfl rfl rfl rfl

/-- Another handle on what is within something held. -/
theorem retain_shown {address : Address} (counted : bench.Counted pending extra)
    (shown : (bench.state.ledger ⟨extra, bench.held⟩).Shows address) :
    { bench with heap := bench.heap.retain address }.Counted pending (address ::ₘ extra) :=
  counted.act (counted.beside.retain (Beside.known_of_shows shown)) rfl rfl rfl rfl

theorem retain_held {address : Address} (counted : bench.Counted pending extra)
    (held : address ∈ bench.held) :
    { bench with heap := bench.heap.retain address }.Counted pending (address ::ₘ extra) :=
  counted.retain_shown (Or.inr (Or.inl held))

theorem retain_slotted {address : Address} (counted : bench.Counted pending extra)
    (slotted : address ∈ bench.slotted) :
    { bench with heap := bench.heap.retain address }.Counted pending (address ::ₘ extra) :=
  counted.retain (by simp [slotted])

theorem release {addresses : List Address} (counted : bench.Counted pending (addresses + extra)) :
    (bench.release addresses).Counted pending extra := by
  have released := @Assertion.Stable.release _ _ ⟨extra, bench.held⟩ bench.state
    (Beside.stable (pending + bench.slotted)) addresses counted.beside
  exact counted.act released rfl rfl rfl rfl

theorem create {heap : Heap} {address : Address} (counted : bench.Counted pending extra)
    (crafted : Heap.Crafted bench.heap 0 heap {address}) :
    { bench with heap := heap }.Counted pending (address ::ₘ extra) := by
  have created := @Assertion.Stable.create _ _ ⟨extra, bench.held⟩ bench.state
    (Beside.stable (pending + bench.slotted)) heap address ⟨crafted, Or.inl trivial⟩ counted.beside
  exact counted.act created rfl rfl rfl rfl

/-! ## Slots of their own -/

theorem enterSlot {address : Address} (counted : bench.Counted pending (address ::ₘ extra)) :
    { bench with heap := bench.heap.enterSlot address }.Counted (address ::ₘ pending) extra := by
  obtain ⟨distinct, heap⟩ := counted.beside
  have entered : (bench.heap.enterSlot address).Balanced
      (address ::ₘ (bench.scopes.bound + (pending + bench.slotted)))
      (bench.state.ledger ⟨extra, bench.held⟩).handles := by
    apply Heap.Balanced.enterSlot
    simpa [Ledger.handles, State.ledger, state] using heap
  rw [← Multiset.add_cons, ← Multiset.cons_add] at entered
  exact counted.act ⟨distinct, entered⟩ rfl rfl rfl rfl

theorem leaveSlots {addresses : List Address}
    (counted : bench.Counted (addresses + pending) extra) :
    { bench with heap := bench.heap.leaveSlots addresses }.Counted pending
      (addresses + extra) := by
  obtain ⟨distinct, heap⟩ := counted.beside
  have split : bench.scopes.bound + (addresses + pending + bench.slotted) =
      (addresses : Multiset Address) + (bench.scopes.bound + (pending + bench.slotted)) := by
    ac_rfl
  have left : (bench.heap.leaveSlots addresses).Balanced
      (bench.scopes.bound + (pending + bench.slotted))
      (addresses + (bench.state.ledger ⟨extra, bench.held⟩).handles) := by
    apply Heap.Balanced.leaveSlots
    rw [← split]
    exact heap
  refine counted.act ⟨distinct, ?_⟩ rfl rfl rfl rfl
  simpa [Ledger.handles, State.ledger, state, add_assoc] using left

/-! ## Names -/

/-- Slots are taken out of those that are held by name. -/
theorem part {slots : Holdings} {taken : Multiset Address} (counted : bench.Counted pending extra)
    (parted : bench.slots.Parted slots taken) :
    { bench with slots := slots }.Counted (taken + pending) extra := by
  refine counted.regroup rfl ?_ rfl { counted.distinct with slots := parted.distinct }
  rw [slotted, slotted, parted.values]
  ac_rfl

theorem mem_held_of_handle? {name : String} {address : Address}
    (found : bench.handle? name = some address) : address ∈ bench.held := by
  obtain ⟨earlier, later, split, _⟩ := List.lookup_eq_some_iff.mp found
  simp [held, split]

theorem mem_held_of_place? {name : String} {place : Place} {container : Address}
    (found : bench.place? name = some place) (member : container ∈ place.handles) :
    container ∈ bench.held := by
  obtain ⟨earlier, later, split, _⟩ := List.lookup_eq_some_iff.mp found
  simp [held, split, member]

theorem mem_slotted_of_slot? {name : String} {address : Address}
    (found : bench.slots.get? name = some address) : address ∈ bench.slotted := by
  obtain ⟨earlier, later, split, _⟩ := List.lookup_eq_some_iff.mp found
  simp [slotted, split]

theorem mem_slotted_of_frame? {name : String} {frame : ScopeFrame} {value : Address}
    (found : bench.frame? name = some frame) (member : value ∈ frame.values) :
    value ∈ bench.slotted := by
  obtain ⟨earlier, later, split, _⟩ := List.lookup_eq_some_iff.mp found
  simp [slotted, split, member]

theorem forgetHandle (counted : bench.Counted pending extra) (name : String) :
    (bench.forgetHandle name).Counted pending extra := by
  have parted := Holdings.parted_erase counted.distinct.handles name
  have erased : { bench with handles := bench.handles.erase name }.Counted pending
      ((bench.handle? name).toList + extra) := by
    refine counted.regroup rfl rfl ?_ { counted.distinct with handles := parted.distinct }
    rw [held, held, parted.values, handle?]
    ac_rfl
  exact erased.release

theorem forgetPlace (counted : bench.Counted pending extra) (name : String) :
    (bench.forgetPlace name).Counted pending extra := by
  have split := flatMap_of_lookup counted.distinct.places name Place.handles
  have erased : { bench with places := bench.places.filter (·.1 != name) }.Counted pending
      ((bench.place? name).toList.flatMap Place.handles + extra) := by
    refine counted.regroup rfl rfl ?_ { counted.distinct with
      places := counted.distinct.places.sublist (List.filter_sublist.map _) }
    rw [held, held, split, place?]
    ac_rfl
  exact erased.release

theorem forgetSlot (counted : bench.Counted pending extra) (name : String) :
    (bench.forgetSlot name).Counted pending extra := by
  exact (counted.part (Holdings.parted_erase counted.distinct.slots name)).leaveSlots.release

theorem forgetFrame (counted : bench.Counted pending extra) (name : String) :
    (bench.forgetFrame name).Counted pending extra := by
  have split := flatMap_of_lookup counted.distinct.frames name ScopeFrame.values
  have erased : { bench with frames := bench.frames.filter (·.1 != name) }.Counted
      ((bench.frame? name).toList.flatMap ScopeFrame.values + pending) extra := by
    refine counted.regroup rfl ?_ rfl { counted.distinct with
      frames := counted.distinct.frames.sublist (List.filter_sublist.map _)
      bindings := fun entry member => counted.distinct.bindings entry (List.mem_of_mem_filter member) }
    rw [slotted, slotted, split, frame?]
    ac_rfl
  exact erased.leaveSlots.release

/-- A frame takes the place of another one, whose slots are not lost. -/
theorem keepFrame {pending' : Multiset Address} {frame : ScopeFrame}
    (counted : bench.Counted pending extra) (distinct : frame.Distinct) (name : String)
    (exchanged : pending' + frame.values =
      pending + ((bench.frame? name).toList.flatMap ScopeFrame.values : List Address)) :
    (bench.keepFrame name frame).Counted pending' extra := by
  have split := flatMap_of_lookup counted.distinct.frames name ScopeFrame.values
  refine counted.regroup rfl ?_ rfl { counted.distinct with
    frames := nodup_filter_cons counted.distinct.frames name frame
    bindings := ?_ }
  · rw [slotted, slotted, split, add_left_comm pending, ← add_assoc pending, ← frame?, ← exchanged]
    simp only [Workbench.keepFrame, List.map_cons, List.flatMap_cons, ← Multiset.coe_add]
    ac_rfl
  · intro entry member
    rcases List.mem_cons.mp member with rfl | other
    · exact distinct
    · exact counted.distinct.bindings entry (List.mem_of_mem_filter other)

theorem deliver {address : Address} (counted : bench.Counted pending (address ::ₘ extra))
    (target : String) : (bench.deliver target address).2.Counted pending extra := by
  have forgotten := counted.forgetHandle target
  refine forgotten.regroup rfl rfl ?_ { forgotten.distinct with
    handles := nodup_filter_cons counted.distinct.handles target address }
  rw [held, held]
  simp [Workbench.deliver, ← Multiset.cons_coe]

theorem keepPlace {place : Place} (counted : bench.Counted pending (place.handles + extra))
    (name variableName : String) :
    (bench.keepPlace name place variableName).2.Counted pending extra := by
  have forgotten := counted.forgetPlace name
  refine forgotten.regroup rfl rfl ?_ { forgotten.distinct with
    places := nodup_filter_cons counted.distinct.places name place }
  rw [held, held]
  simp only [Workbench.keepPlace, List.map_cons, List.flatMap_cons, ← Multiset.coe_add]
  ac_rfl

theorem intern (counted : bench.Counted pending extra) (name : String) :
    (bench.intern name).2.Counted pending extra :=
  counted.act counted.beside rfl rfl rfl rfl

/-! ## Operations on held values -/

theorem share {address? : Option Address} (counted : bench.Counted pending extra)
    (shown : ∀ address ∈ address?, (bench.state.ledger ⟨extra, bench.held⟩).Shows address)
    (target : String) : (bench.share target address?).2.Counted pending extra := by
  cases address? with
  | none => exact counted
  | some address => exact (counted.retain_shown (shown address rfl)).deliver target

theorem deliverScalar (counted : bench.Counted pending extra) (target : String)
    (result : Except Cause Scalar) :
    (bench.deliverScalar target result).2.Counted pending extra := by
  cases result with
  | error cause => exact counted
  | ok value => exact (counted.create (Heap.Crafted.newScalar bench.heap value)).deliver target

theorem withHandle {name : String} {action : Address → Reply × Workbench}
    (counted : bench.Counted pending extra)
    (acts : ∀ address ∈ bench.held, (action address).2.Counted pending extra) :
    (bench.withHandle name action).2.Counted pending extra := by
  unfold Workbench.withHandle
  split
  · rename_i address found
    exact acts address (mem_held_of_handle? found)
  · exact counted

theorem withHandles {left right : String} {action : Address → Address → Reply × Workbench}
    (counted : bench.Counted pending extra)
    (acts : ∀ first ∈ bench.held, ∀ second ∈ bench.held,
      (action first second).2.Counted pending extra) :
    (bench.withHandles left right action).2.Counted pending extra := by
  apply counted.withHandle
  intro first firstHeld
  apply counted.withHandle
  intro second secondHeld
  exact acts first firstHeld second secondHeld

theorem withPlace {name : String} {action : Place → Reply × Workbench}
    (counted : bench.Counted pending extra)
    (acts : ∀ place : Place, (∀ container ∈ place.handles, container ∈ bench.held) →
      (action place).2.Counted pending extra) :
    (bench.withPlace name action).2.Counted pending extra := by
  unfold Workbench.withPlace
  split
  · rename_i place found
    apply acts place
    intro container member
    exact mem_held_of_place? found member
  · exact counted

theorem unary {operand : Address} (counted : bench.Counted pending extra)
    (held : operand ∈ bench.held) (target : String) (operator : UnaryOperator) :
    (bench.unary target operator operand).2.Counted pending extra := by
  unfold Workbench.unary
  split
  · exact counted
  · exact (counted.retain_held held).deliver target
  · exact counted.deliverScalar target _

theorem cast (counted : bench.Counted pending extra) (target : String) (source : Address)
    (type : StaticType) : (bench.cast target source type).2.Counted pending extra := by
  unfold Workbench.cast
  split
  · exact counted
  · exact counted.deliverScalar target _
  · exact (counted.create (Heap.Crafted.copy bench.heap source)).deliver target

/-! ## Places and slots -/

theorem keepInnerPlace {container : Address} {place : Place}
    (counted : bench.Counted pending extra) (held : container ∈ bench.held)
    (handles : place.handles = [container]) (name : String) :
    (bench.keepInnerPlace name container place).2.Counted pending extra := by
  have retained := counted.retain_held held
  rw [← Multiset.singleton_add, ← Multiset.coe_singleton, ← handles] at retained
  exact retained.keepPlace name ""

theorem read {container key : Address} (counted : bench.Counted pending extra)
    (containerHeld : container ∈ bench.held) (keyHeld : key ∈ bench.held) (target : String) :
    (bench.read target container key).2.Counted pending extra := by
  have retained := counted.retain_held keyHeld
  have walked := @Assertion.Stable.readElement _ _ ⟨extra, bench.held⟩ _
    (Beside.stable (pending + bench.slotted)) container key retained.beside containerHeld
  simp only [state] at walked
  unfold Workbench.read onHeap
  dsimp only
  generalize (bench.heap.retain key).readElement container key = outcome at walked ⊢
  obtain ⟨result, heap⟩ := outcome
  cases result with
  | error cause => exact counted.act walked rfl rfl rfl rfl
  | ok address =>
      have ended : { bench with heap := heap }.Counted pending (address ::ₘ extra) :=
        counted.act (walked.regroup (by simp [Hand.either, Hand.share])) rfl rfl rfl rfl
      exact ended.deliver target

theorem locate {container key : Address} (counted : bench.Counted pending extra)
    (containerHeld : container ∈ bench.held) (keyHeld : key ∈ bench.held) (name : String)
    (access : Access) : (bench.locate name container key access).2.Counted pending extra := by
  have retained := counted.retain_held keyHeld
  have walked := @Assertion.Stable.locate _ _ ⟨extra, bench.held⟩ _
    (Beside.stable (pending + bench.slotted)) container key access retained.beside containerHeld
  simp only [state] at walked
  unfold Workbench.locate onHeap
  dsimp only
  generalize (bench.heap.retain key).locate container key access = outcome at walked ⊢
  obtain ⟨result, heap⟩ := outcome
  cases result with
  | error cause => exact counted.act walked rfl rfl rfl rfl
  | ok place =>
      have ended : { bench with heap := heap }.Counted pending (place.handles + extra) :=
        counted.act (walked.regroup (by simp [Hand.either, Hand.shareAll, add_left_comm, add_assoc]))
          rfl rfl rfl rfl
      exact ended.keepPlace name ""

theorem store {place : Place} {source : Address} (counted : bench.Counted pending extra)
    (handles : ∀ container ∈ place.handles, container ∈ bench.held)
    (sourceHeld : source ∈ bench.held) (target : String) :
    (bench.store place source target).2.Counted pending extra := by
  have retained := counted.retain_held sourceHeld
  unfold Workbench.store onStorage
  dsimp only
  cases loaded : place.load bench.scopes (bench.heap.retain source) with
  | error cause =>
      have unchanged : place.store bench.scopes (bench.heap.retain source) source =
          (.error cause, bench.scopes, bench.heap.retain source) := by
        rw [Place.store, loaded]
      simp only [unchanged]
      rw [← Multiset.singleton_add, ← Multiset.coe_singleton] at retained
      exact retained.release
  | ok previous =>
      obtain ⟨scopes, heap, stored, _, step⟩ := @Place.store_step place previous ⟨True, True⟩
        ({ bench with heap := bench.heap.retain source }.state.ledger
          ⟨source ::ₘ extra, bench.held⟩) source extra handles loaded rfl
      have result : place.store bench.scopes (bench.heap.retain source) source =
          (.ok previous, scopes, heap) := stored
      simp only [result]
      have ended : { bench with heap := heap, scopes := scopes }.Counted pending
          (previous ::ₘ extra) := by
        refine counted.act ?_ rfl rfl rfl rfl
        have exchanged : Beside (pending + bench.slotted) ⟨extra, previous ::ₘ bench.held⟩
            { bench with heap := heap, scopes := scopes }.state :=
          Ledger.BalancedBeside.step (pending + bench.slotted) step retained.beside
        exact exchanged.regroup (by simp)
      exact ended.deliver target

theorem newSlot {source : Address} (counted : bench.Counted pending extra)
    (held : source ∈ bench.held) (slot : String) :
    (bench.newSlot slot source).2.Counted pending extra := by
  have entered := (counted.retain_held held).enterSlot.forgetSlot slot
  refine entered.regroup rfl ?_ rfl { entered.distinct with
    slots := nodup_filter_cons counted.distinct.slots slot source }
  rw [slotted, slotted]
  simp [Workbench.newSlot, onHeap, ← Multiset.cons_coe]

theorem replaceSlot {source : Address} (counted : bench.Counted pending extra)
    (held : source ∈ bench.held) (slot target : String) :
    (bench.replaceSlot slot source target).2.Counted pending extra := by
  unfold Workbench.replaceSlot onHeap
  split
  · exact counted
  · rename_i previous found
    have entered := (counted.retain_held held).enterSlot
    have parted := Holdings.parted_erase counted.distinct.slots slot
    rw [found] at parted
    have renamed : { bench with
        heap := (bench.heap.retain source).enterSlot source
        slots := (slot, source) :: bench.slots.erase slot }.Counted
          (([previous] : List Address) + pending) extra := by
      refine entered.regroup rfl ?_ rfl { counted.distinct with
        slots := nodup_filter_cons counted.distinct.slots slot source }
      rw [slotted, slotted, parted.values]
      simp [← Multiset.cons_coe, Multiset.cons_swap]
    have left := renamed.leaveSlots
    rw [Multiset.coe_singleton, Multiset.singleton_add] at left
    exact left.deliver target

theorem assemble (counted : bench.Counted pending extra) (target : String)
    (assembly : Assembly) : (bench.assemble target assembly).2.Counted pending extra := by
  unfold Workbench.assemble
  split
  · exact counted
  · rename_i payload slots made
    have parted := counted.part (assembly.parted counted.distinct.slots made)
    have allocated : { bench with
        slots := slots
        heap := (bench.heap.allocate assembly.type payload).2 }.Counted pending
          (bench.heap.cells.size ::ₘ extra) := by
      obtain ⟨distinct, heap⟩ := parted.beside
      refine parted.act ⟨distinct, ?_⟩ rfl rfl rfl rfl
      rw [add_assoc, add_left_comm] at heap
      have balanced := heap.allocate assembly.type
      simpa [Ledger.handles, State.ledger, state] using balanced
    exact allocated.deliver target

/-! ## Frames -/

theorem withFrame {name : String} {action : ScopeFrame → Reply × Workbench}
    (counted : bench.Counted pending extra)
    (acts : ∀ frame, bench.frame? name = some frame → (action frame).2.Counted pending extra) :
    (bench.withFrame name action).2.Counted pending extra := by
  unfold Workbench.withFrame
  split
  · rename_i frame found
    exact acts frame found
  · exact counted

theorem newFrame (counted : bench.Counted pending extra) (name : String) :
    ((bench.forgetFrame name).keepFrame name {}).Counted pending extra := by
  have gone : (bench.forgetFrame name).frame? name = none := by
    apply List.lookup_eq_none_iff.mpr
    intro entry member
    simpa [bne_comm] using List.of_mem_filter member
  have empty : ({} : ScopeFrame).Distinct := List.nodup_nil
  refine (counted.forgetFrame name).keepFrame empty name ?_
  rw [gone]
  rfl

/-- A binding in a frame takes over a handle, and what it replaces is gone. -/
theorem rebind {frameName : String} {frame : ScopeFrame} {value : Address}
    (counted : bench.Counted pending (value ::ₘ extra))
    (found : bench.frame? frameName = some frame) (name : Name) :
    ((bench.onHeap fun heap => frame.declare heap name value).2.keepFrame frameName
      (frame.put name value)).Counted pending extra := by
  have distinct := counted.distinct.of_frame? found
  have kept : ({ bench with heap := bench.heap.enterSlot value }.keepFrame frameName
      (frame.put name value)).Counted ((frame.get? name).toList + pending) extra := by
    apply counted.enterSlot.keepFrame (distinct.put name value)
    have same : { bench with heap := bench.heap.enterSlot value }.frame? frameName = some frame :=
      found
    rw [same, Option.toList_some, List.flatMap_singleton, add_right_comm,
      distinct.values_exchanged, Multiset.cons_add, Multiset.cons_add, add_comm]
  exact kept.leaveSlots.release

theorem declareIn {frameName : String} {frame : ScopeFrame} {value : Address}
    (counted : bench.Counted pending extra) (found : bench.frame? frameName = some frame)
    (held : value ∈ bench.held) (name : String) :
    (bench.declareIn frameName frame name value).2.Counted pending extra :=
  ((counted.intern name).retain_held held).rebind found _

theorem readFrame {frameName : String} {frame : ScopeFrame}
    (counted : bench.Counted pending extra) (found : bench.frame? frameName = some frame)
    (name target : String) :
    ((bench.intern name).2.share target (frame.get? (bench.intern name).1)).2.Counted
      pending extra := by
  have interned := counted.intern name
  cases bound : frame.get? (bench.intern name).1 with
  | none => exact interned
  | some address =>
      have slotted : address ∈ (bench.intern name).2.slotted :=
        mem_slotted_of_frame? found (ScopeFrame.mem_values_of_get? bound)
      exact (interned.retain_slotted slotted).deliver target

/-! ## Scopes -/

theorem popScope (counted : bench.Counted pending extra) :
    (bench.onStorage fun scopes heap => ((), scopes.pop heap)).2.Counted pending extra := by
  have held : Holding (Ledger.BalancedBeside (pending + bench.slotted)) bench.calls.depth
      ⟨extra, bench.held⟩ bench.state := ⟨counted.beside, rfl⟩
  have popped := held.pop (@Ledger.BalancedBeside.step ⟨True, True⟩ (pending + bench.slotted))
  exact counted.act popped.1 rfl rfl rfl rfl

theorem truncate (counted : bench.Counted pending extra) (depth : Nat) :
    (bench.onStorage fun scopes heap =>
      ((), scopes.truncate heap depth)).2.Counted pending extra := by
  have popMany : ∀ (count : Nat) (bench : Workbench), bench.Counted pending extra →
      (bench.onStorage fun scopes heap =>
        ((), scopes.popMany heap count)).2.Counted pending extra := by
    intro count
    induction count with
    | zero => exact fun bench counted => counted
    | succ count induction =>
        intro bench counted
        exact induction _ counted.popScope
  exact popMany _ bench counted

theorem declare {value : Address} (counted : bench.Counted pending (value ::ₘ extra))
    (name : Name) :
    (bench.onStorage fun scopes heap =>
      ((), scopes.declare heap name value)).2.Counted pending extra := by
  have declared := @Evaluation.declare_triple ⟨True, True⟩ _ (Beside.stable (pending + bench.slotted))
    false (by simp) name value ⟨extra, bench.held⟩ (fun _ => True) bench.state counted.beside
  exact counted.act declared rfl rfl rfl rfl

/-! ## Calls -/

/-- What balances with the results of the calls after a change. -/
theorem actOnCalls {heap : Heap} {calls : Calls} {results extra' : Multiset Address}
    (counted : bench.Counted pending extra)
    (balanced : Ledger.BalancedBeside (pending + bench.slotted)
      { bench.state.ledger ⟨extra', bench.held⟩ with heap := heap, results := results })
    (kept : calls.results = results) :
    { bench with heap := heap, calls := calls }.Counted pending extra' := by
  subst kept
  exact counted.act ⟨balanced.distinct, balanced.heap⟩ rfl rfl rfl rfl

theorem newCalls (counted : bench.Counted pending extra) (limit : Option Nat) :
    (bench.newCalls limit).Counted pending extra := by
  have lasting := @Ledger.BalancedBeside.step ⟨True, True⟩ (pending + bench.slotted)
  have discarded : ∀ (frames : List CallFrame) (ledger : Ledger),
      ledger.results = (frames.filterMap (·.result) : List Address) →
      ledger.BalancedBeside (pending + bench.slotted) →
        Ledger.BalancedBeside (pending + bench.slotted) { ledger with
          heap := frames.foldl (fun heap frame => frame.discard heap) ledger.heap
          results := 0 } := by
    intro frames
    induction frames with
    | nil =>
        intro ledger results balanced
        rw [List.filterMap_nil, Multiset.coe_nil] at results
        rw [← results]
        exact balanced
    | cons frame others induction =>
        intro ledger results balanced
        have split : ledger.results = (frame.result.toList : Multiset Address) +
            (others.filterMap (·.result) : List Address) := by
          rw [results]
          cases kept : frame.result with
          | none => simp [kept]
          | some value => simp [kept, ← Multiset.cons_coe]
        exact induction _ rfl (CallFrame.discard_lasting lasting balanced split)
  refine counted.actOnCalls ?_ rfl
  apply discarded bench.calls.frames.toList.reverse _ _ counted.beside
  rw [List.filterMap_reverse, Multiset.coe_eq_coe.mpr (List.reverse_perm _)]
  rfl

theorem pushCall (counted : bench.Counted pending extra) (name : String) (callSite : Span)
    (scopeBase loopBase : Nat) :
    (bench.pushCall name callSite scopeBase loopBase).2.Counted pending extra := by
  have interned := counted.intern name
  unfold Workbench.pushCall
  split
  rename_i symbol after outcome
  rw [outcome] at interned
  split
  · exact interned
  · refine interned.actOnCalls interned.beside ?_
    rw [Calls.results_push, Option.toList_none, Multiset.coe_nil, zero_add]
    rfl

theorem popCall (counted : bench.Counted pending extra) :
    bench.popCall.2.Counted pending extra := by
  unfold Workbench.popCall
  split
  · exact counted
  · rename_i frame current
    refine counted.actOnCalls ?_ rfl
    exact CallFrame.discard_lasting (@Ledger.BalancedBeside.step ⟨True, True⟩ _) counted.beside
      (Calls.results_of_current? current)

theorem setResult {source : Address} (counted : bench.Counted pending extra)
    (held : source ∈ bench.held) : (bench.setResult source).2.Counted pending extra := by
  have retained := counted.retain_held held
  unfold Workbench.setResult
  split
  · exact counted
  · rename_i frame current
    have kept := CallFrame.setResult_lasting (@Ledger.BalancedBeside.step ⟨True, True⟩ _) retained.beside
      rfl (Calls.results_of_current? current)
    exact retained.actOnCalls kept (Calls.results_modifyCurrent current _)

theorem takeResult (counted : bench.Counted pending extra) (target : String) :
    (bench.takeResult target).2.Counted pending extra := by
  unfold Workbench.takeResult
  split
  · exact counted
  · rename_i frame current
    have taken := CallFrame.takeResult_lasting (@Ledger.BalancedBeside.step ⟨True, True⟩ _)
      counted.beside (Calls.results_of_current? current)
    have results : (bench.calls.modifyCurrent fun _ =>
        (frame.takeResult bench.heap).2.1).results = bench.calls.pop.results := by
      rw [Calls.results_modifyCurrent current]
      cases earlier : frame.result with
      | none => simp [CallFrame.takeResult, earlier]
      | some value => simp [CallFrame.takeResult, earlier]
    have ended : { bench with
        heap := (frame.takeResult bench.heap).2.2
        calls := bench.calls.modifyCurrent fun _ => (frame.takeResult bench.heap).2.1 }.Counted
          pending (((frame.takeResult bench.heap).1.toList : Multiset Address) + extra) :=
      counted.actOnCalls taken results
    unfold onHeap
    dsimp only
    cases result : (frame.takeResult bench.heap).1 with
    | none =>
        rw [result, Option.toList_none, Multiset.coe_nil, zero_add] at ended
        exact ended
    | some address =>
        rw [result, Option.toList_some, Multiset.coe_singleton, Multiset.singleton_add] at ended
        exact ended.deliver target

/-! ## Zones -/

theorem rezone {heap : Heap} {zones : Vector Nat 2} (counted : bench.Counted pending extra)
    (cells : heap.cells = bench.heap.cells) (sound : heap.underflowed = bench.heap.underflowed) :
    { bench with heap := heap, zones := zones }.Counted pending extra := by
  obtain ⟨distinct, balanced⟩ := counted.beside
  refine counted.act ⟨distinct, balanced.rezone cells sound⟩ rfl rfl rfl rfl

/-! ## Commands -/

theorem describe (counted : bench.Counted pending extra) (description : Description) :
    { bench with heap := (description.allocate bench.handles bench.heap).2 }.Counted pending
      ((description.allocate bench.handles bench.heap).1 ::ₘ extra) := by
  obtain ⟨distinct, balanced⟩ := counted.beside
  have crafting := Heap.Balanced.crafting (bench.scopes.bound + (pending + bench.slotted))
    (bench.state.ledger ⟨extra, bench.held⟩).handles
  have lends : Heap.Crafting.Lends
      (fun heap slots owned => heap.Balanced (slots + (bench.scopes.bound + (pending + bench.slotted)))
        (owned + (bench.state.ledger ⟨extra, bench.held⟩).handles))
      bench.handles description.names := by
    intro name _ address found heap slots owned kept
    rw [Multiset.cons_add]
    apply kept.retain
    have held : address ∈ bench.held := mem_held_of_handle? found
    simp [Ledger.handles, State.ledger, held]
  have started : bench.heap.Balanced (0 + (bench.scopes.bound + (pending + bench.slotted)))
      (0 + (bench.state.ledger ⟨extra, bench.held⟩).handles) := by
    rw [zero_add, zero_add]
    exact balanced
  have built := crafting.describe description lends started
  refine counted.act ⟨distinct, ?_⟩ rfl rfl rfl rfl
  simpa [Ledger.handles, State.ledger, state] using built

theorem perform (counted : bench.Counted 0 0) (command : Command) :
    (bench.perform command).2.Counted 0 0 := by
  cases command with
  | create target description =>
      rw [Workbench.perform]
      split
      · exact (counted.describe description).deliver target
      · exact counted
  | handle target source =>
      apply counted.withHandle
      intro address held
      exact (counted.retain_held held).deliver target
  | copy target source =>
      apply counted.withHandle
      intro address _
      exact (counted.create (Heap.Crafted.copy bench.heap address)).deliver target
  | default target type =>
      exact (counted.create (Heap.Crafted.newDefault bench.heap type)).deliver target
  | drop name => exact counted.withHandle fun _ _ => counted.forgetHandle name
  | «show» name => exact counted.withHandle fun _ _ => counted
  | quote name => exact counted.withHandle fun _ _ => counted
  | outline name => exact counted.withHandle fun _ _ => counted
  | equals left right => exact counted.withHandles fun _ _ _ _ => counted
  | same left right => exact counted.withHandles fun _ _ _ _ => counted
  | inspect name => exact counted.withHandle fun _ _ => counted
  | element target source position =>
      apply counted.withHandle
      intro container held
      refine counted.share ?_ target
      intro address found
      obtain ⟨object, alive, offered⟩ := Heap.offered_of_element? found
      exact Or.inr (Or.inr ⟨container, held, object, alive, offered⟩)
  | find target source key =>
      apply counted.withHandles
      intro container held _ _
      refine counted.share ?_ target
      intro address found
      obtain ⟨position, _, stored⟩ := Option.bind_eq_some_iff.mp found
      obtain ⟨entry, inside, rfl⟩ := Option.map_eq_some_iff.mp stored
      obtain ⟨object, alive, offered⟩ := Heap.offered_of_entry? inside
      exact Or.inr (Or.inr ⟨container, held, object, alive, offered⟩)
  | useZone number => exact counted.rezone rfl rfl
  | resetZone number => exact counted.rezone rfl rfl
  | sweep =>
      have same : bench.heap.sweep.2 = bench.heap :=
        congrArg Prod.snd counted.beside.heap.sweep_eq
      refine counted.act ?_ rfl rfl rfl rfl
      simp only [Workbench.perform, onHeap, state, same]
      exact counted.beside
  | live => exact counted
  | isLive name =>
      rw [Workbench.perform]
      split
      · exact counted
      · exact counted
  | newSlot slot source =>
      exact counted.withHandle fun address held => counted.newSlot held slot
  | readSlot target slot =>
      rw [Workbench.perform]
      split
      · rename_i address found
        exact (counted.retain_slotted (mem_slotted_of_slot? found)).deliver target
      · exact counted
  | replaceSlot slot source target =>
      exact counted.withHandle fun address held => counted.replaceSlot held slot target
  | outlineSlot slot =>
      rw [Workbench.perform]
      split
      · exact counted
      · exact counted
  | dropSlot slot =>
      rw [Workbench.perform]
      split
      · exact counted.forgetSlot slot
      · exact counted
  | assemble target assembly => exact counted.assemble target assembly
  | arithmetic target operator left right =>
      exact counted.withHandles fun _ _ _ _ => counted.deliverScalar target _
  | compare operator left right =>
      apply counted.withHandles
      intro left _ right _
      split
      · exact counted
      · exact counted
  | unary target operator operand =>
      exact counted.withHandle fun address held => counted.unary held target operator
  | cast target source type =>
      exact counted.withHandle fun address _ => counted.cast target address type
  | position key length =>
      apply counted.withHandle
      intro address _
      split
      · exact counted
      · exact counted
  | read target container key =>
      exact counted.withHandles fun _ containerHeld _ keyHeld =>
        counted.read containerHeld keyHeld target
  | locate place container key access =>
      exact counted.withHandles fun _ containerHeld _ keyHeld =>
        counted.locate containerHeld keyHeld place access
  | elementPlace place container position =>
      exact counted.withHandle fun _ held => counted.keepInnerPlace held rfl place
  | entryPlace place container position =>
      exact counted.withHandle fun _ held => counted.keepInnerPlace held rfl place
  | bindingPlace place depth name =>
      have interned := counted.intern name
      rw [← zero_add (0 : Multiset Address), ← Multiset.coe_nil] at interned
      exact interned.keepPlace place name
  | load target place =>
      apply counted.withPlace
      intro place handles
      split
      · rename_i address loaded
        exact (counted.retain_shown (Place.shown_of_load loaded handles)).deliver target
      · exact counted
  | store place source target =>
      apply counted.withPlace
      intro place handles
      exact counted.withHandle fun _ held => counted.store handles held target
  | dropPlace place => exact counted.withPlace fun _ _ => counted.forgetPlace place
  | pushScope =>
      have pushed := @Ledger.BalancedBeside.step ⟨True, True⟩ _ _ _ .push counted.beside
      exact counted.act pushed rfl rfl rfl rfl
  | popScope => exact counted.popScope
  | truncate depth => exact counted.truncate depth
  | declare name source =>
      apply counted.withHandle
      intro address held
      exact ((counted.intern name).retain_held held).declare _
  | resolve name floor => exact counted.intern name
  | lookup target name floor =>
      refine (counted.intern name).share ?_ target
      intro address found
      obtain ⟨position, _, bound⟩ := Scopes.get?_of_lookup? found
      exact Or.inl (Scopes.mem_bound_of_get? bound)
  | getBinding target depth name =>
      refine (counted.intern name).share ?_ target
      intro address found
      exact Or.inl (Scopes.mem_bound_of_get? found)
  | replaceBinding depth name source target =>
      apply counted.withHandle
      intro address held
      have interned := counted.intern name
      dsimp only
      split
      · exact interned
      · exact interned.store (by simp [Place.handles]) held target
  | skipFrom depth =>
      have skipped := @Ledger.BalancedBeside.step ⟨True, True⟩ _ _ _ (.skip depth) counted.beside
      exact counted.act skipped rfl rfl rfl rfl
  | scopeInfo => exact counted
  | newFrame frame => exact counted.newFrame frame
  | declareIn frameName name source =>
      apply counted.withFrame
      intro frame found
      exact counted.withHandle fun address held => counted.declareIn found held name
  | readFrame target frameName name =>
      apply counted.withFrame
      intro frame found
      exact counted.readFrame found name target
  | frameSize frameName => exact counted.withFrame fun _ _ => counted
  | dropFrame frameName => exact counted.withFrame fun _ _ => counted.forgetFrame frameName
  | newCalls limit => exact counted.newCalls limit
  | pushCall name callSite scopeBase loopBase =>
      exact counted.pushCall name callSite scopeBase loopBase
  | popCall => exact counted.popCall
  | setResult source => exact counted.withHandle fun _ held => counted.setResult held
  | takeResult target => exact counted.takeResult target
  | callInfo => exact counted
  | capture => exact counted
  | attach failure => exact counted
  | pushLoop scopeDepth => exact counted.act counted.beside rfl rfl rfl rfl
  | popLoop => exact counted.act counted.beside rfl rfl rfl rfl
  | innermostLoop base => exact counted
  | breakLoop base =>
      rw [Workbench.perform]
      split
      · exact counted.act counted.beside rfl rfl rfl rfl
      · exact counted

end Counted

theorem initial_counted : initial.Counted 0 0 := by
  refine ⟨⟨List.nodup_nil, List.nodup_nil, List.nodup_nil, List.nodup_nil, nofun⟩, ?_⟩
  have blank : (({} : State).ledger .empty).BalancedBeside 0 :=
    Ledger.balancedBeside_zero_iff.mpr (Ledger.Balanced.blank none)
  exact ⟨blank.distinct, blank.heap.rezone rfl rfl⟩

end Workbench

end ScriptEngine
