import ScriptEngine.Proofs.Control.Stacks
import ScriptEngine.Proofs.Control.Termination
import ScriptEngine.Proofs.Ownership.Snapshots

/-!
# The rounds of a loop over items

What a `for` loop binds are the items that there were when it began, one by one: the
numbers of a range, copies of the elements of a vector or of the entries of a dict.
The next item is only copied when a round begins, but the loop owns what it iterates
over, so whatever the rounds before have done, the copy reads as it would have then.
All items have their round unless one breaks out of the loop, returns or fails.
-/

namespace ScriptEngine

/-! ## What items read as -/

namespace Items

variable {heap origin after : Heap} {slots handles slots' handles' : Multiset Address}
  {source value : Address} {items others : Items} {tree : Tree}

/-- What the next item reads as, and the items after it. -/
def upcoming? (heap : Heap) : Items → Option (Tree × Items)
  | .integers next stop =>
      if next.toInt < stop.toInt then
        some (.scalar .int (.int next), .integers (next + 1) stop)
      else none
  | .elements source position =>
      (heap.element? source position).map fun element =>
        (heap.tree element, .elements source (position + 1))
  | .entries source position pairType =>
      (heap.entry? source position).map fun entry =>
        (.vector (.vector pairType) [heap.tree entry.1, heap.tree entry.2],
          .entries source (position + 1) pairType)

/-- What all the items that are left read as. -/
def snapshot (heap : Heap) : Items → List Tree
  | .integers next stop =>
      (List.range (stop.toInt - next.toInt).toNat).map fun (offset : Nat) =>
        .scalar .int (.int (Int64.ofInt (next.toInt + offset)))
  | .elements source position =>
      match heap.payload? source with
      | some (.vector members) => (members.drop position).map heap.tree
      | _ => []
  | .entries source position pairType =>
      ((heap.entries source).drop position).map fun entry =>
        .vector (.vector pairType) [heap.tree entry.1, heap.tree entry.2]

theorem snapshot_of_upcoming? (upcoming : items.upcoming? heap = some (tree, others)) :
    items.snapshot heap = tree :: others.snapshot heap := by
  cases items with
  | integers next stop =>
      simp only [upcoming?] at upcoming
      split at upcoming
      · rename_i smaller
        obtain ⟨rfl, rfl⟩ := Prod.mk.inj (Option.some.inj upcoming)
        have successor := Int64.toInt_add_one smaller
        have count : (stop.toInt - next.toInt).toNat =
            (stop.toInt - (next + 1).toInt).toNat + 1 := by omega
        simp only [snapshot, count, List.range_succ_eq_map, List.map_cons, List.map_map]
        congr 1
        · simp
        · apply List.map_congr_left
          intro offset _
          simp only [Function.comp_apply, successor, Nat.succ_eq_add_one, Int.natCast_add]
          congr 3
          omega
      · simp at upcoming
  | elements source position =>
      simp only [upcoming?, Option.map_eq_some_iff] at upcoming
      obtain ⟨element, found, same⟩ := upcoming
      obtain ⟨rfl, rfl⟩ := Prod.mk.inj same
      simp only [Heap.element?] at found
      split at found
      · rename_i members present
        obtain ⟨inside, rfl⟩ := List.getElem?_eq_some_iff.mp found
        simp only [snapshot, present, List.drop_eq_getElem_cons inside, List.map_cons]
      · simp at found
  | entries source position pairType =>
      simp only [upcoming?, Option.map_eq_some_iff] at upcoming
      obtain ⟨entry, found, same⟩ := upcoming
      obtain ⟨rfl, rfl⟩ := Prod.mk.inj same
      obtain ⟨inside, rfl⟩ := List.getElem?_eq_some_iff.mp found
      simp only [snapshot, List.drop_eq_getElem_cons inside, List.map_cons]

theorem source?_of_upcoming? (upcoming : items.upcoming? heap = some (tree, others)) :
    others.source? = items.source? := by
  cases items with
  | integers next stop =>
      simp only [upcoming?] at upcoming
      split at upcoming
      · obtain ⟨_, rfl⟩ := Prod.mk.inj (Option.some.inj upcoming)
        rfl
      · simp at upcoming
  | elements source position =>
      obtain ⟨element, _, same⟩ := Option.map_eq_some_iff.mp upcoming
      obtain ⟨_, rfl⟩ := Prod.mk.inj same
      rfl
  | entries source position pairType =>
      obtain ⟨entry, _, same⟩ := Option.map_eq_some_iff.mp upcoming
      obtain ⟨_, rfl⟩ := Prod.mk.inj same
      rfl

theorem snapshot_of_none (upcoming : items.upcoming? heap = none) : items.snapshot heap = [] := by
  cases items with
  | integers next stop =>
      simp only [upcoming?] at upcoming
      split at upcoming
      · simp at upcoming
      · have none : (stop.toInt - next.toInt).toNat = 0 := by omega
        simp only [snapshot, none, List.range_zero, List.map_nil]
  | elements source position =>
      simp only [upcoming?, Option.map_eq_none_iff, Heap.element?] at upcoming
      simp only [snapshot]
      split
      · rename_i members present
        rw [present] at upcoming
        rw [List.drop_eq_nil_of_le (List.getElem?_eq_none_iff.mp upcoming), List.map_nil]
      · rfl
  | entries source position pairType =>
      simp only [upcoming?, Option.map_eq_none_iff, Heap.entry?] at upcoming
      rw [snapshot, List.drop_eq_nil_of_le (List.getElem?_eq_none_iff.mp upcoming), List.map_nil]

/-! ## Taking items one by one -/

theorem holds_of_element {position : Nat} (found : heap.element? source position = some value) :
    heap.Holds source value := by
  simp only [Heap.element?] at found
  split at found
  · rename_i members present
    exact ⟨_, present, List.mem_of_getElem? found⟩
  · simp at found

theorem holds_of_entry {position : Nat} {entry : Address × Address}
    (found : heap.entry? source position = some entry) :
    heap.Holds source entry.1 ∧ heap.Holds source entry.2 := by
  have member := List.mem_of_getElem? found
  simp only [Heap.entries] at member
  split at member
  · rename_i entries present
    have slots : ∀ slot ∈ [entry.1, entry.2], heap.Holds source slot :=
      fun slot chosen => ⟨_, present, List.mem_flatMap.mpr ⟨entry, member, chosen⟩⟩
    exact ⟨slots _ (by simp), slots _ (by simp)⟩
  · simp at member

/-- The next item is built from what it reads as. -/
theorem next?_eq (sound : heap.Sound slots handles) (items : Items) :
    items.next? heap =
      match items.upcoming? heap with
      | some (tree, others) => (some ((heap.build tree).1, others), (heap.build tree).2)
      | none => (none, heap) := by
  cases items with
  | integers next stop =>
      simp only [next?, upcoming?]
      split <;> rfl
  | elements source position =>
      simp only [next?, upcoming?]
      cases heap.element? source position <;> rfl
  | entries source position pairType =>
      simp only [next?, upcoming?]
      cases found : heap.entry? source position with
      | none => rfl
      | some entry =>
          -- The value is copied after the key, from a heap in which it reads the same.
          have same : (heap.copy entry.1).2.tree entry.2 = heap.tree entry.2 :=
            (sound.tree_build _).2 (sound.balanced.closed (holds_of_entry found).2)
          simp only [Option.map_some]
          rw [Heap.copy, same]
          rfl

/-- What is taken reads as the first of what is left. -/
theorem upcoming?_of_next? (sound : heap.Sound slots handles)
    (taken : items.next? heap = (some (value, others), after)) :
    items.upcoming? heap = some (after.tree value, others) := by
  rw [next?_eq sound] at taken
  split at taken
  · rename_i tree rest upcoming
    obtain ⟨⟨rfl, rfl⟩, rfl⟩ : ((heap.build tree).1 = value ∧ rest = others) ∧
        (heap.build tree).2 = after := by simpa using taken
    rw [upcoming, (sound.tree_build tree).1]
  · simp at taken

theorem upcoming?_eq_none_iff (sound : heap.Sound slots handles) :
    items.upcoming? heap = none ↔ (items.next? heap).1 = none := by
  rw [next?_eq sound]
  cases items.upcoming? heap <;> simp

/-- Items in a container that reads as it did read as they did. -/
theorem upcoming?_alike (sound : origin.Sound slots handles) (sound' : heap.Sound slots' handles')
    (alike : ∀ source ∈ items.source?, Heap.Alike origin heap source) :
    items.upcoming? heap = items.upcoming? origin := by
  have reads : ∀ {source child}, Heap.Alike origin heap source → origin.Holds source child →
      heap.tree child = origin.tree child :=
    fun alike holds => (alike.child holds).tree sound.grounded sound'.grounded
  cases items with
  | integers next stop => rfl
  | elements source position =>
      have alike := alike source rfl
      have same : heap.element? source position = origin.element? source position := by
        rw [Heap.element?, Heap.element?, alike.payload]
      simp only [upcoming?, same]
      cases found : origin.element? source position with
      | none => rfl
      | some element =>
          simp only [Option.map_some, reads alike (holds_of_element found)]
  | entries source position pairType =>
      have alike := alike source rfl
      have same : heap.entry? source position = origin.entry? source position := by
        rw [Heap.entry?, Heap.entry?, Heap.entries, Heap.entries, alike.payload]
      simp only [upcoming?, same]
      cases found : origin.entry? source position with
      | none => rfl
      | some entry =>
          obtain ⟨key, value⟩ := holds_of_entry found
          simp only [Option.map_some, reads alike key, reads alike value]

end Items

/-! ## Rounds -/

/-- A name is bound in a frame that was just pushed. -/
theorem Scopes.declare_push (scopes : Scopes) (heap : Heap) (name : Name) (value : Address) :
    scopes.push.declare heap name value =
      ({ scopes with nested := scopes.nested.push { bindings := [(name, value)] } },
        heap.enterSlot value) := by
  have unbound : scopes.push.get? scopes.push.nested.size name = none := by
    simp [push, get?, frame?, ScopeFrame.get?]
  have put : (scopes.nested.push {}).modify scopes.nested.size (·.put name value) =
      scopes.nested.push { bindings := [(name, value)] } := by
    apply Array.ext (by simp)
    intro position _ inside
    rw [Array.getElem_modify, Array.getElem_push, Array.getElem_push]
    by_cases earlier : position < scopes.nested.size
    · simp [earlier, Nat.ne_of_gt earlier]
    · simp only [Array.size_push] at inside
      rw [dif_neg earlier, dif_neg earlier, if_pos (by omega)]
      rfl
  simp only [declare, unbound, Option.toList_none, Heap.dropSlots, Heap.releaseAll_nil]
  simp only [push, Array.size_push, modifyFrame, put]
  rfl
/-- The state in which the body of a round starts: the item is bound in a scope of its own. -/
def State.enterRound (name : Name) (item : Address) (state : State) : State :=
  (({ state with scopes := state.scopes.push } : State).onStorage fun scopes heap =>
    ((), scopes.declare heap name item)).2

/-- A round of a loop: what its item reads as when it is bound, and the items after it. -/
structure Round where
  value : Tree
  others : Items
  item : Address
  /-- Where the item had not yet been made. -/
  before : Heap
  /-- Where the body starts. -/
  opened : State

/-- The body of a round starts with the variable bound, alone in its scope, to an object
that was made for the round, like all that it leads to. -/
structure Round.Binds (round : Round) (name : Name) : Prop where
  bound : round.opened.scopes.innermost.bindings = [(name, round.item)]
  reads : round.opened.heap.tree round.item = round.value
  young : Heap.Young round.before.cells.size round.opened.heap {round.item}

/-- How a loop ends: no item is left, a round breaks out of it or returns, fails or is
stopped, or there have been as many rounds as there may be. -/
inductive Ending where
  | done (last : State)
  | left (last : State)
  | failed (failure : Failure) (last : State)
  | stopped (reason : Stop)
  | spent

/-- What the ending makes of the loop. -/
def Ending.outcome : Ending → Outcome Unit
  | .done last | .left last => .value () last
  | .failed failure last => .failure failure last
  | .stopped reason => .stopped reason
  | .spent => .stopped .outOfFuel

namespace Evaluation

variable {nested : Nested} {licence : Licence} {property : Ledger → Prop} {depth count : Nat}
  {items others : Items} {name : Name} {body : Block} {hand : Hand} {value : Address}
  {start last : State} {origin : Heap} {source? : Option Address}

/-- What is left of an iteration where its body starts. -/
def finishRound (nested : Nested) (body : Block) : Evaluation Bool :=
  ensuring
    (do
      sequence nested body.statements
      read (!·.loopFinished))
    fun state => (state.onStorage fun scopes heap => ((), scopes.pop heap)).2

theorem iteration_eq (nested : Nested) (name : Name) (item : Address) (body : Block)
    (start : State) :
    iteration nested (some (name, item)) body start =
      finishRound nested body (start.enterRound name item) := rfl

/-- The rounds of a loop over items, and how it ends. -/
def rounds (nested : Nested) (name : Name) (body : Block) :
    Nat → Items → State → List Round × Ending
  | 0, _, _ => ([], .spent)
  | count + 1, items, start =>
      match items.next? start.heap with
      | (none, heap) => ([], .done { start with heap := heap })
      | (some (item, others), heap) =>
          let opened := { start with heap := heap }.enterRound name item
          let round := ⟨heap.tree item, others, item, start.heap, opened⟩
          match finishRound nested body opened with
          | .value true last =>
              let (more, ending) := rounds nested name body count others last
              (round :: more, ending)
          | .value false last => ([round], .left last)
          | .failure failure last => ([round], .failed failure last)
          | .stopped reason => ([round], .stopped reason)

/-- The loop does what its rounds do. -/
theorem outcome_rounds (nested : Nested) (name : Name) (body : Block) (count : Nat)
    (items : Items) (start : State) :
    (rounds nested name body count items start).2.outcome =
      forEachFrom nested name body count items start := by
  induction count generalizing items start with
  | zero => rfl
  | succ count induction =>
      simp only [rounds, forEachFrom, bind_run, onHeap, State.onHeap]
      obtain ⟨item?, heap⟩ := items.next? start.heap
      cases item? with
      | none => rfl
      | some item =>
          obtain ⟨item, others⟩ := item
          simp only [bind_run, iteration_eq]
          cases finishRound nested body ({ start with heap := heap }.enterRound name item) with
          | value again last =>
              cases again with
              | true => exact induction others last
              | false => rfl
          | failure failure last => rfl
          | stopped reason => rfl

/-- The item of a round is new where it is bound. -/
theorem binds_of_next? {slots handles : Multiset Address} {heap : Heap}
    (sound : start.heap.Sound slots handles)
    (taken : items.next? start.heap = (some (value, others), heap)) :
    Round.Binds ⟨heap.tree value, others, value, start.heap,
      { start with heap := heap }.enterRound name value⟩ name := by
  have entered : { start with heap := heap }.enterRound name value =
      { start with
        scopes := { start.scopes with
          nested := start.scopes.nested.push { bindings := [(name, value)] } }
        heap := heap.enterSlot value } := by
    simp only [State.enterRound, State.onStorage, Scopes.declare_push]
  have remains := Heap.Remains.enterSlot heap value
  rw [Items.next?_eq sound] at taken
  split at taken
  · rename_i tree rest _
    obtain ⟨⟨rfl, _⟩, rfl⟩ : ((start.heap.build tree).1 = value ∧ rest = others) ∧
        (start.heap.build tree).2 = heap := by simpa using taken
    rw [entered]
    constructor
    · simp [Scopes.innermost]
    · have extends' : Heap.Extends (start.heap.build tree).2
          ((start.heap.build tree).2.enterSlot (start.heap.build tree).1) :=
        ⟨remains.size, fun address _ => Heap.payload?_enterSlot _ _ address⟩
      rw [Heap.tree_build]
      exact Heap.tree_of_build extends' remains.survives
    · exact (Heap.Crafted.build start.heap tree).young.remains remains fun _ member => member
  · simp at taken

/-- An iteration tells whether the loop has to end. -/
theorem loopFinished_of_iteration {again : Bool}
    (iterated : iteration nested (some (name, value)) body start = .value again last) :
    last.loopFinished = !again := by
  simp only [iteration, inScope, ensuring, bind_run, declare] at iterated
  split at iterated
  · rename_i result inner ran
    split at ran
    · obtain ⟨rfl, rfl⟩ := Outcome.value.inj ran
      obtain ⟨rfl, rfl⟩ := Outcome.value.inj iterated
      simp [State.loopFinished, State.onStorage]
    · simp at ran
    · simp at ran
  · simp at iterated
  · simp at iterated

/-- What is there reads as it did in an earlier heap, in so far as items are taken from it. -/
structure Intact (origin heap : Heap) (source? : Option Address) : Prop where
  sound : ∃ slots handles, heap.Sound slots handles
  alike : ∀ source ∈ source?, Heap.Alike origin heap source

/-- The rounds go by a snapshot: all of it is bound in its order, each item to the variable
that a body starts with, unless a round is the last one because it breaks out of the loop or
returns, fails or is stopped.  The numbers of a range are exact, and so is the one that the
next round would bind. -/
structure Unrolls (name : Name) (snapshot : List Tree) (items : Items) (count : Nat)
    (start : State) (rounds : List Round) (ending : Ending) : Prop where
  binds : ∀ round ∈ rounds, round.Binds name
  ordered : rounds.map Round.value <+: snapshot
  complete : ∀ {last}, ending = .done last → rounds.map Round.value = snapshot
  left : ∀ {last}, ending = .left last → last.loopFinished = true ∧ start.Keeps .block last
  spent : ending = .spent → rounds.length = count
  exact : ∀ {next stop : Int64}, items = .integers next stop → ∀ (position : Nat) (round : Round),
    rounds[position]? = some round → ∃ number cursor : Int64,
      round.value = .scalar .int (.int number) ∧ round.others = .integers cursor stop ∧
        number.toInt = next.toInt + position ∧ cursor.toInt = number.toInt + 1 ∧
          cursor.toInt ≤ stop.toInt

namespace Unrolls

variable {round : Round} {more : List Round} {ending : Ending} {middle : State}

theorem exact_of_upcoming? {heap : Heap} {next stop : Int64}
    (upcoming : (Items.integers next stop).upcoming? heap = some (round.value, round.others)) :
    round.value = .scalar .int (.int next) ∧ round.others = .integers (next + 1) stop ∧
      (next + 1).toInt = next.toInt + 1 ∧ (next + 1).toInt ≤ stop.toInt := by
  simp only [Items.upcoming?] at upcoming
  split at upcoming
  · rename_i smaller
    obtain ⟨value, others⟩ := Prod.mk.inj (Option.some.inj upcoming)
    have successor := Int64.toInt_add_one smaller
    exact ⟨value.symm, others.symm, successor, by omega⟩
  · simp at upcoming

/-- No further round after one that is the last. -/
theorem ended {snapshot : List Tree} (unfinished : ∀ last, ending ≠ .done last)
    (unspent : ending ≠ .spent)
    (left : ∀ {last}, ending = .left last → last.loopFinished = true ∧ start.Keeps .block last) :
    Unrolls name snapshot items count start [] ending where
  binds := nofun
  ordered := List.nil_prefix
  complete done := absurd done (unfinished _)
  left := left
  spent spent := absurd spent unspent
  exact _ _ _ found := nomatch found

/-- One more round. -/
theorem next (binds : round.Binds name)
    (upcoming : items.upcoming? origin = some (round.value, round.others))
    (keeps : start.Keeps .block middle)
    (unrolls : Unrolls name (round.others.snapshot origin) round.others count middle more ending) :
    Unrolls name (items.snapshot origin) items (count + 1) start (round :: more) ending := by
  have snapshot := Items.snapshot_of_upcoming? upcoming
  constructor
  · intro other member
    rcases List.mem_cons.mp member with rfl | later
    · exact binds
    · exact unrolls.binds other later
  · rw [snapshot, List.map_cons, List.cons_prefix_cons]
    exact ⟨rfl, unrolls.ordered⟩
  · intro last done
    rw [snapshot, List.map_cons, unrolls.complete done]
  · intro last left
    obtain ⟨finished, kept⟩ := unrolls.left left
    exact ⟨finished, keeps.trans kept⟩
  · intro spent
    rw [List.length_cons, unrolls.spent spent]
  · rintro next stop rfl position other found
    obtain ⟨value, others, successor, small⟩ := exact_of_upcoming? upcoming
    cases position with
    | zero =>
        obtain rfl := Option.some.inj found
        exact ⟨next, next + 1, value, others, by simp, successor, small⟩
    | succ position =>
        obtain ⟨number, cursor, bound, cut, exact, exact', below⟩ :=
          unrolls.exact others position other found
        refine ⟨number, cursor, bound, cut, ?_, exact', below⟩
        omega

end Unrolls

/-- Whatever the rounds do, they go by what the items read as to begin with. -/
theorem rounds_unroll (lasting : Ledger.Lasting licence property) (sound : nested.Sound property)
    (keeps : ∀ value, (iteration nested (some (name, value)) body).Keeps .block)
    (intact : ∀ {ledger}, property ledger → Intact origin ledger.heap source?)
    (started : Intact origin origin source?) (same : items.source? = source?)
    (holds : Holding property depth hand start) :
    Unrolls name (items.snapshot origin) items count start
      (rounds nested name body count items start).1
      (rounds nested name body count items start).2 := by
  induction count generalizing items start with
  | zero =>
      exact ⟨nofun, List.nil_prefix, nofun, nofun, fun _ => rfl, fun _ _ _ found => nomatch found⟩
  | succ count induction =>
      obtain ⟨⟨slots, handles, sound'⟩, alike⟩ : Intact origin start.heap source? := intact holds.1
      obtain ⟨slots', handles', origin'⟩ := started.sound
      have reads := Items.upcoming?_alike origin' sound' (same ▸ alike)
      have kept : start.Keeps .block { start with heap := (items.next? start.heap).2 } :=
        (State.Keeps.refl .block start).aside _ _ _
      have made := (Holding.stable lasting depth).gain (fashioned_next? items start.heap).makes holds
      obtain ⟨item?, heap, taken⟩ : ∃ item? heap, items.next? start.heap = (item?, heap) :=
        ⟨_, _, rfl⟩
      rw [taken] at kept made
      rw [rounds, taken]
      cases item? with
      | none =>
          have none : items.upcoming? origin = none := by
            rw [← reads, Items.upcoming?_eq_none_iff sound', taken]
          rw [Items.snapshot_of_none none]
          exact ⟨nofun, List.nil_prefix, fun _ => rfl, nofun, nofun,
            fun _ _ _ found => nomatch found⟩
      | some item =>
          obtain ⟨value, others⟩ := item
          have upcoming := reads.symm.trans (Items.upcoming?_of_next? sound' taken)
          have binds : Round.Binds _ name := binds_of_next? sound' taken
          have followed := (Items.source?_of_upcoming? upcoming).trans same
          have round := iteration_triple lasting sound depth (some (name, value)) body hand
          have keeping := keeps value
          dsimp only
          rw [← iteration_eq]
          cases iterated : iteration nested (some (name, value)) body { start with heap := heap } with
          | value again last =>
              have finished := loopFinished_of_iteration iterated
              have kept' := kept.trans (keeping.of_value iterated)
              cases again with
              | true =>
                  have rest := induction followed (round.of_value made iterated)
                  exact rest.next binds upcoming kept'
              | false =>
                  have rest : Unrolls name (others.snapshot origin) others count last []
                      (.left last) := by
                    apply Unrolls.ended (by simp) (by simp)
                    rintro _ ⟨⟩
                    exact ⟨finished, .refl _ _⟩
                  exact rest.next binds upcoming kept'
          | failure failure last =>
              have kept' := kept.trans (keeping.of_failure iterated)
              have rest : Unrolls name (others.snapshot origin) others count last []
                  (.failed failure last) := Unrolls.ended (by simp) (by simp) (by simp)
              exact rest.next binds upcoming kept'
          | stopped reason =>
              have rest : Unrolls name (others.snapshot origin) others count
                  { start with heap := heap } [] (.stopped reason) := Unrolls.ended (by simp) (by simp) (by simp)
              exact rest.next binds upcoming kept

end Evaluation

end ScriptEngine
