import ScriptEngine.Proofs.Control.Performing
import ScriptEngine.Proofs.Hosting.Keys
import ScriptEngine.Proofs.Hosting.Storing
import ScriptEngine.Proofs.Ownership.Lookups
import ScriptEngine.Proofs.Ownership.Putting

/-!
# Trails

What a walk has found in containers can be found again later, with keys of the same
contents: slots stay where they are.  So where the slots that the walk came through
still hold the containers that it found in them, the same keys lead to its end.
-/

namespace ScriptEngine

open Evaluation

namespace Ledger

variable {licence : Licence} {property : Ledger → Prop} {start last : Ledger}

/-- Steps lead from one ledger to another. -/
def Onward (licence : Licence) : Ledger → Ledger → Prop :=
  Relation.ReflTransGen (Step licence)

namespace Onward

theorem evolves (onward : start.Onward licence last) : start.heap.Evolves last.heap := by
  induction onward with
  | refl => exact .refl _
  | tail _ step induction => exact induction.trans step.evolves

/-- Where nothing is lent and built-in functions are careful, dicts keep their keys. -/
theorem keepsKeys (onward : start.Onward ⟨False, False⟩ last) (sealed : start.Sealed) :
    start.heap.KeepsKeys last.heap :=
  (sealed.becomes onward).2

end Onward

/-- A property of a ledger to which steps have led from another one. -/
structure Reached (licence : Licence) (property : Ledger → Prop) (start ledger : Ledger) : Prop where
  kept : property ledger
  onward : start.Onward licence ledger

theorem Reached.step (lasting : Lasting licence property) :
    Lasting licence (Reached licence property start) :=
  fun step reached => ⟨lasting step reached.kept, reached.onward.tail step⟩

theorem Reached.here (kept : property start) : Reached licence property start start :=
  ⟨kept, .refl⟩

end Ledger

namespace Evaluation

variable {setup : Setup} {licence : Licence} {property : Ledger → Prop} {depth : Nat} {hand : Hand}
  {place last : Place} {strides : List Stride}

section

variable {operands : Operands}

theorem locateForWriting_of_locate {container key : Address} {next : Place} {keyed : State}
    {heap : Heap} (located : keyed.heap.locate container key .write = (.ok next, heap)) :
    locateForWriting container key keyed = .value next { keyed with heap := heap } := by
  unfold locateForWriting
  rw [bind_run]
  simp only [onHeap, State.onHeap, located]
  rfl

/-- The handles of an index that has been followed are given back. -/
theorem Standing.giveBack (lasting : Ledger.Lasting licence property)
    (balances : ∀ {ledger : Ledger}, property ledger → ledger.Balanced) {place next : Place}
    {state : State} {container : Address}
    (standing : Standing property depth ((hand.shareAll place.handles).share container) next state) :
    Standing property depth hand next ((state.releaseAll [container]).releaseAll place.handles) := by
  rw [← (hand.shareAll place.handles).shareAll_nil, ← Hand.shareAll_cons] at standing
  exact (standing.releaseAll lasting balances).releaseAll lasting balances

/-- A moment that is remembered from now on. -/
theorem Standing.reached {place : Place} {state : State}
    (standing : Standing property depth hand place state) :
    Standing (Ledger.Reached licence property (state.ledger (hand.shareAll place.handles))) depth hand
      place state :=
  ⟨⟨.here standing.1.1, standing.1.2⟩, standing.2⟩

/-- The handles at hand while an index is followed. -/
theorem Standing.stride (lasting : Ledger.Lasting licence property)
    (balances : ∀ {ledger : Ledger}, property ledger → ledger.Balanced)
    (sound : operands.Sound (Holding property depth)) {place next : Place}
    {start keyed : State} {container key : Address} {index : ExpressionId} {heap : Heap}
    (standing : Standing property depth hand place start)
    (loaded : place.load start.scopes start.heap = .ok container)
    (valued : operands.evaluate index { start with heap := start.heap.retain container } =
      .value key keyed)
    (located : keyed.heap.locate container key .write = (.ok next, heap)) :
    Holding property depth (((hand.shareAll place.handles).share container).own key) keyed ∧
      Standing property depth ((hand.shareAll place.handles).share container) next
        { keyed with heap := heap } ∧
      Standing property depth hand next
        ((State.releaseAll { keyed with heap := heap } [container]).releaseAll place.handles) := by
  have stable := Holding.stable lasting depth
  have shared := (loadPlace_triple stable place (hand.shareAll place.handles)
    fun _ member => Multiset.mem_add.mpr (Or.inl member)).of_value standing.1
      (loadPlace_of_ok loaded)
  have owned := (sound.evaluate index _).of_value shared valued
  have stands := (locateForWriting_standing lasting balances container key
    ((hand.shareAll place.handles).share container) (Multiset.mem_cons_self _ _)).of_value owned
      (locateForWriting_of_locate located)
  exact ⟨owned, stands, stands.giveBack lasting balances⟩

end

/-- What is known of a stride at a later moment. -/
structure Stride.Leads (licence : Licence) (property : Ledger → Prop) (final : Ledger)
    (stride : Stride) (next : Place) : Prop where
  keyed : ∃ slots handles, stride.keyed.heap.Sound slots handles
  owned : stride.keyed.heap.payload? stride.key ≠ none
  located : stride.keyed.heap.locate stride.container stride.key .write = (.ok next, stride.found)
  alive : stride.found.payload? stride.container ≠ none
  onward : ∃ ledger : Ledger, ledger.heap = stride.found ∧ property ledger ∧
    ledger.Onward licence final

theorem Stride.Leads.enters {final : Ledger} {stride : Stride} {next : Place}
    (leads : stride.Leads licence property final next) : stride.Enters next := by
  have written := congrArg Prod.fst leads.located
  exact Heap.handles_of_locate written

section

variable (lasting : Ledger.Lasting licence property)
  (orders : ∀ {ledger : Ledger}, property ledger → ledger.Orderly)
  (abides : setup.builtins.Abides licence.careless)
include lasting orders abides

/-- A walk ends at a place that stands. -/
theorem Tracks.standing {indices : List ExpressionId} {start reached : State}
    (tracks : Tracks setup place indices start strides last reached)
    (standing : Standing property depth hand place start) :
    Standing property depth hand last reached := by
  induction tracks with
  | nil place state => exact standing
  | cons fuel loaded valued located _ induction =>
      have sound := (Nested.withFuel_sound lasting abides fuel).operands depth
      have balances : ∀ {ledger : Ledger}, property ledger → ledger.Balanced :=
        fun kept => (orders kept).balanced
      exact induction (standing.stride lasting balances sound loaded valued located).2.2

/-- What is known of the strides of a walk at any later moment. -/
theorem Tracks.leads {indices : List ExpressionId} {start reached : State} {final : Ledger}
    (tracks : Tracks setup place indices start strides last reached)
    (standing : Standing property depth hand place start)
    (onward : (reached.ledger (hand.shareAll last.handles)).Onward licence final) :
    Chain (Stride.Leads licence property final) place strides last := by
  induction tracks with
  | nil place state => exact .nil place
  | @cons place next last container key index others start keyed reached heap strides fuel loaded
      valued located rest induction =>
      have sound := (Nested.withFuel_sound lasting abides fuel).operands depth
      have balances : ∀ {ledger : Ledger}, property ledger → ledger.Balanced :=
        fun kept => (orders kept).balanced
      obtain ⟨owned, stands, released⟩ := standing.stride lasting balances sound loaded valued located
      have leads : Stride.Leads licence property final ⟨place, container, key, keyed, heap⟩ next := by
        have living : ∃ object, heap.get? container = some object := by
          apply stands.1.1 |> orders |>.balanced.heap.alive
          have written := congrArg Prod.fst located
          simp [Ledger.handles, State.ledger, Hand.shareAll, Heap.handles_of_locate written]
        have present : ∃ object, keyed.heap.get? key = some object := by
          apply (orders owned.1).balanced.heap.alive
          simp [Ledger.handles, State.ledger, Hand.own]
        obtain ⟨object, living⟩ := living
        obtain ⟨object', present⟩ := present
        refine ⟨⟨_, _, (orders owned.1).sound⟩, by simp [Heap.payload?_of_get? present], located,
          by simp [Heap.payload?_of_get? living], _, rfl, stands.1.1, ?_⟩
        have lasting' := @Ledger.Reached.step licence property (State.ledger { keyed with heap := heap }
          (((hand.shareAll place.handles).share container).shareAll next.handles)) lasting
        have back := Standing.giveBack lasting' (fun reached => balances reached.kept) stands.reached
        have ends := rest.standing lasting' (fun reached => orders reached.kept) abides back
        exact ends.1.1.onward.trans onward
      exact .cons leads (induction released onward)

end

/-! ## Reading along a trail -/

/-- The keys that the container had when the stride was taken have their contents, if it
is still there. -/
def Stride.KeysKept (stride : Stride) (heap : Heap) : Prop :=
  heap.payload? stride.container ≠ none →
    ∀ key ∈ stride.found.keys stride.container, heap.tree key = stride.found.tree key

theorem Stride.Leads.keysKept {final : Ledger} {stride : Stride} {next : Place}
    (leads : stride.Leads ⟨False, False⟩ Ledger.Sealed final next) : stride.KeysKept final.heap := by
  intro alive key member
  obtain ⟨ledger, found, sealed, onward⟩ := leads.onward
  rw [← found] at member ⊢
  exact (onward.keepsKeys sealed).contents member alive

/-- The key of a stride leads to the place that the stride has led to. -/
theorem Stride.Leads.readAt {final : Ledger} {stride : Stride} {next : Place} {value : Address}
    (leads : stride.Leads licence Ledger.Orderly final next) (proper : stride.tree.hasNan = false)
    (kept : stride.KeysKept final.heap)
    (loaded : next.load final.scopes final.heap = .ok value) :
    final.heap.readAt stride.container stride.tree = .ok value := by
  obtain ⟨slots, handles, sound⟩ := leads.keyed
  obtain ⟨ledger, found, orderly, onward⟩ := leads.onward
  have alive : final.heap.payload? stride.container ≠ none := by
    cases Place.leads_of_load loaded with
    | binding same _ =>
        have enters := leads.enters
        simp [Stride.Enters, same, Place.handles] at enters
    | inside _ only living _ _ _ =>
        cases only.symm.trans leads.enters
        simp [Heap.payload?_of_get? living]
  obtain ⟨spot, isSlot, present, spotted⟩ := Heap.Sound.spotAt_of_locate leads.located sound
    (found ▸ orderly.sound) leads.owned leads.alive proper
  have evolves := found ▸ onward.evolves
  exact Heap.readAt_of_load isSlot (Heap.spotAt_of_keys evolves alive (kept alive) spotted present)
    loaded

/-- Where the slots on the way hold what they held, the keys lead to the end of it. -/
theorem Chain.readAlong {final : Ledger}
    (chain : Chain (Stride.Leads licence Ledger.Orderly final) place strides last)
    (proper : ∀ stride ∈ strides, stride.tree.hasNan = false)
    (kept : ∀ stride ∈ strides, stride.KeysKept final.heap)
    (loads : ∀ stride ∈ strides,
      stride.place.load final.scopes final.heap = .ok stride.container)
    {root value : Address} (first : place.load final.scopes final.heap = .ok root)
    (loaded : last.load final.scopes final.heap = .ok value) :
    final.heap.readAlong root (strides.map Stride.tree) = .ok value := by
  induction chain generalizing root with
  | nil place =>
      rw [first] at loaded
      exact loaded
  | @cons stride next last others leads rest induction =>
      have same := (loads stride List.mem_cons_self).symm.trans first
      cases same
      have reaches : ∃ middle, next.load final.scopes final.heap = .ok middle := by
        cases rest with
        | nil => exact ⟨value, loaded⟩
        | @cons second _ _ _ _ _ => exact ⟨second.container, loads second (by simp)⟩
      obtain ⟨middle, reached⟩ := reaches
      rw [List.map_cons, Heap.readAlong, leads.readAt (proper stride List.mem_cons_self)
        (kept stride List.mem_cons_self) reached]
      exact induction (fun other member => proper other (List.mem_cons_of_mem _ member))
        (fun other member => kept other (List.mem_cons_of_mem _ member))
        (fun other member => loads other (List.mem_cons_of_mem _ member)) reached loaded

/-! ## Slots that hold what they held -/

/-- A chain of slots from a binding is alive, and holds what it held, if each of its slots
does as long as its container lives. -/
theorem Chain.loads {scopes : Scopes} {heap : Heap} {handles : Multiset Address}
    (chain : Chain Stride.Enters place strides last) (balanced : heap.Balanced scopes.bound handles)
    (alive : ∀ container ∈ place.handles, ∃ object, heap.get? container = some object)
    (still : ∀ stride ∈ strides,
      (∀ container ∈ stride.place.handles, ∃ object, heap.get? container = some object) →
        stride.place.load scopes heap = .ok stride.container) :
    (∀ stride ∈ strides, stride.place.load scopes heap = .ok stride.container) ∧
      ∀ container ∈ last.handles, ∃ object, heap.get? container = some object := by
  induction chain with
  | nil place => exact ⟨by simp, alive⟩
  | @cons stride next last others enters rest induction =>
      have loaded := still stride List.mem_cons_self alive
      have living : ∃ object, heap.get? stride.container = some object := by
        apply balanced.alive
        cases Place.leads_of_load loaded with
        | binding _ found => simp [Scopes.mem_bound_of_get? found]
        | inside _ _ holding offered _ _ =>
            have stored := Heap.mem_stored.mpr
              ⟨_, _, holding, Payload.mem_children_of_mem_offers offered⟩
            simp [stored]
      have entered : ∀ container ∈ next.handles, ∃ object, heap.get? container = some object := by
        intro container member
        rw [enters, List.mem_singleton] at member
        rwa [member]
      obtain ⟨loads, ends⟩ := induction entered fun other member =>
        still other (List.mem_cons_of_mem _ member)
      refine ⟨?_, ends⟩
      intro other member
      rcases List.mem_cons.mp member with rfl | later
      · exact loaded
      · exact loads other later

/-- Slots lead from each container of a chain to that of its end. -/
theorem Chain.reaches {scopes : Scopes} {heap : Heap}
    (chain : Chain Stride.Enters place strides last)
    (loads : ∀ stride ∈ strides, stride.place.load scopes heap = .ok stride.container)
    {holder : Address} (member : holder ∈ last.handles) :
    (∀ container ∈ place.handles, Relation.ReflTransGen heap.Holds container holder) ∧
      ∀ stride ∈ strides, ∀ container ∈ stride.place.handles,
        Relation.TransGen heap.Holds container holder := by
  induction chain with
  | nil place =>
      refine ⟨?_, by simp⟩
      intro container inside
      cases place with
      | binding depth name => simp [Place.handles] at inside
      | element vector position =>
          rw [Place.handles, List.mem_singleton] at inside member
          rw [inside, member]
      | entry dict position =>
          rw [Place.handles, List.mem_singleton] at inside member
          rw [inside, member]
  | @cons stride next last others enters _ induction =>
      have loaded := loads stride List.mem_cons_self
      obtain ⟨onward, rest⟩ := induction
        (fun other inside => loads other (List.mem_cons_of_mem _ inside)) member
      have entered : stride.container ∈ next.handles := by simp [show next.handles = _ from enters]
      have first : ∀ container ∈ stride.place.handles,
          Relation.TransGen heap.Holds container holder :=
        fun container inside => .head' (Place.holds_of_load loaded inside) (onward _ entered)
      refine ⟨fun container inside => (first container inside).to_reflTransGen, ?_⟩
      intro other inside
      rcases List.mem_cons.mp inside with rfl | later
      · exact first
      · exact rest other later

end Evaluation

end ScriptEngine
