import ScriptEngine.Proofs.Control.Lengthening
import ScriptEngine.Proofs.Hosting.Trails

/-!
# Assignments that are read back

What an assignment stores lies in the place that its target was resolved to, before the
value was evaluated.  The keys of the target lead there from its variable, unless the
evaluation has put something else into the variable or a slot on the way.
-/

namespace ScriptEngine

open Evaluation

/-! ## What a store leaves in a place -/

theorem Evaluation.load_of_storeIn {place : Place} {value : Address} {before after : State}
    (stored : storeIn place value before = .value () after)
    (alive : ∀ container ∈ place.handles, ∃ object, after.heap.get? container = some object) :
    place.load after.scopes after.heap = .ok value := by
  cases loaded : place.load before.scopes before.heap with
  | error cause =>
      rw [storeIn_of_error loaded] at stored
      cases stored
  | ok previous =>
      obtain ⟨scopes, heap, written, loads⟩ := Place.load_store loaded value
      rw [storeIn_of_store written] at stored
      cases stored
      apply Place.load_congr loads (fun _ => rfl)
      intro container member
      obtain ⟨object, living⟩ := alive container member
      have present := Heap.payload?_of_get? living
      exact present.trans ((Heap.Remains.releaseAll heap [previous]).payload present).symm

/-- A store leaves the other places alone. -/
theorem Place.Spares.payload?_eq {place other : Place} {before after : State}
    (spares : place.Spares before after)
    (apart : ∀ container ∈ other.handles, container ∉ place.handles) {container : Address}
    {payload : Payload} (member : container ∈ other.handles)
    (found : after.heap.payload? container = some payload) :
    before.heap.payload? container = some payload := by
  refine (spares.objects ?_ found).1
  rintro holder inside _ rfl
  exact apart container member inside

/-- A name that is resolved is bound in a place that stands. -/
theorem Evaluation.Standing.of_resolve {property : Ledger → Prop} {depth position : Nat} {hand : Hand}
    {name : Name} {state : State} (held : Holding property depth hand state)
    (resolved : state.scopes.resolve? name state.calls.scopeFloor = some position) :
    Standing property depth hand (.binding position name) state := by
  refine ⟨by rwa [Place.handles, Hand.shareAll_nil], ?_⟩
  obtain ⟨root, found⟩ := Scopes.exists_get?_of_resolve? resolved
  exact ⟨root, by simp [Place.load, found]⟩

namespace Assignment

variable {setup : Setup} {licence : Licence} {property : Ledger → Prop} {depth : Nat} {hand : Hand}
  {target value : ExpressionId} {start : State} {assignment : Assignment}

/-! ## Handles during an assignment -/

/-- What is at hand once the place has been found. -/
structure Held (property : Ledger → Prop) (depth : Nat) (hand : Hand) (assignment : Assignment) :
    Prop where
  evaluated : Holding property depth
    ((hand.shareAll assignment.place.handles).own assignment.stored) assignment.evaluated
  written : Holding property depth
    ((hand.shareAll assignment.place.handles).own assignment.copied) assignment.written
  last : Holding property depth (hand.own assignment.copied) assignment.last

section

variable (performs : assignment.Performs setup target value start)
  (lasting : Ledger.Lasting licence property) (abides : setup.builtins.Abides licence.careless)
include performs lasting abides

theorem Performs.held (standing : Standing property depth hand assignment.place assignment.walked) :
    assignment.Held property depth hand := by
  obtain ⟨fuel, valued⟩ := performs.valued
  have stable := Holding.stable lasting depth
  have sound := (Nested.withFuel_sound lasting abides fuel).operands depth
  have evaluated := (sound.evaluate value _).of_value standing.1 valued
  have copies := @Triple.copy _ _ (fun _ => True)
    ((hand.shareAll assignment.place.handles).own assignment.stored) stable assignment.stored
  have duplicated := copies.of_value evaluated performs.copies
  rw [Hand.own_own] at duplicated
  have shared : ∀ container ∈ assignment.place.handles,
      container ∈ ((hand.shareAll assignment.place.handles).own assignment.copied).shared :=
    fun _ member => Multiset.mem_add.mpr (Or.inl member)
  have written := (storeIn_triple stable assignment.place assignment.stored _ shared).of_value
    duplicated performs.writes
  exact ⟨evaluated, written, stable.giveBack written⟩

variable (orders : ∀ {ledger : Ledger}, property ledger → ledger.Orderly)
  (held : Holding property depth hand start)
include orders held

theorem Performs.standing : Standing property depth hand assignment.place assignment.walked :=
  performs.tracks.standing lasting orders abides (.of_resolve held performs.resolved)

/-- What is known of the strides when the assignment has been performed. -/
theorem Performs.leads :
    Chain (Stride.Leads licence property (assignment.last.ledger (hand.own assignment.copied)))
      (.binding assignment.position assignment.name) assignment.strides assignment.place := by
  have standing := performs.standing lasting abides orders held
  have reached := performs.held (Ledger.Reached.step lasting) abides standing.reached
  exact performs.tracks.leads lasting orders abides (.of_resolve held performs.resolved)
    reached.last.1.onward

end

/-! ## Slots on the way -/

/-- The variable and the slots on the way hold what they held when the walk came through
them, once the value has been evaluated. -/
def Intact (assignment : Assignment) : Prop :=
  ∀ stride ∈ assignment.strides, stride.place.load assignment.evaluated.scopes
    assignment.evaluated.heap = .ok stride.container

/-- Only the slot of the place is different in the end. -/
theorem Performs.load_of_load (performs : assignment.Performs setup target value start)
    {place : Place} {content : Address} (different : place ≠ assignment.place)
    (apart : ∀ container ∈ place.handles, container ∉ assignment.place.handles)
    (alive : ∀ container ∈ place.handles, ∃ object,
      assignment.last.heap.get? container = some object)
    (loaded : place.load assignment.evaluated.scopes assignment.evaluated.heap = .ok content) :
    place.load assignment.last.scopes assignment.last.heap = .ok content := by
  have spares := Place.Spares.storeIn (Or.inl performs.writes)
  have same := performs.duplicated_eq
  have survives := (Heap.Crafted.copy assignment.evaluated.heap assignment.stored).survives
  apply Place.load_congr loaded
  · rintro depth name rfl
    have kept := spares.bindings different.symm
    rw [same] at kept
    exact kept
  · intro container member
    obtain ⟨object, living⟩ := alive container member
    have present := Heap.payload?_of_get? living
    have written : assignment.written.heap.payload? container = some object.payload :=
      (Heap.Remains.releaseAll _ _).payload present
    have duplicated := spares.payload?_eq apart member written
    rw [same] at duplicated
    obtain ⟨payload, found, _⟩ := Place.holds_of_load loaded member
    have old := Heap.lt_size_of_payload? found
    exact present.trans (survives.payload old duplicated).symm

section

variable (performs : assignment.Performs setup target value start)
  (held : assignment.Held property depth hand)
  (balances : ∀ {ledger : Ledger}, property ledger → ledger.Balanced)
include performs held balances

/-- The object is in the place to which the target was resolved. -/
theorem Performs.load_place :
    assignment.place.load assignment.written.scopes assignment.written.heap =
      .ok assignment.stored := by
  apply load_of_storeIn performs.writes
  intro container member
  apply (balances held.written.1).heap.alive
  simp [Ledger.handles, State.ledger, Hand.own, Hand.shareAll, member]

/-- Nothing is put into the slots on the way if neither an index nor the value has a call or
an assignment in it. -/
theorem Performs.intact (quiet : ∀ index ∈ assignment.indices, setup.program.Quiet index)
    (quietValue : setup.program.Quiet value) : assignment.Intact := by
  obtain ⟨fuel, valued⟩ := performs.valued
  have gentle := (Nested.gentle quietValue fuel).1.of_value valued
  have balanced := (balances held.evaluated.1).heap
  refine (performs.tracks.chain.loads balanced (by simp [Place.handles]) ?_).1
  intro stride member alive
  have still := performs.tracks.still quiet gentle.heap.survives.lengthens member alive
  rwa [← gentle.scopes] at still

end

theorem Performs.chain (performs : assignment.Performs setup target value start) :
    Chain Stride.Enters (.binding assignment.position assignment.name) assignment.strides
      assignment.place :=
  performs.tracks.chain

section

variable (performs : assignment.Performs setup target value start)
  (held : assignment.Held Ledger.Orderly depth hand)
include performs held

/-- What holds in the way of the place is another container than that of the place. -/
theorem Performs.apart (intact : assignment.Intact) {stride : Stride}
    (member : stride ∈ assignment.strides) {container : Address}
    (inside : container ∈ stride.place.handles) : container ∉ assignment.place.handles := by
  intro same
  have path := (performs.chain.reaches intact same).2 stride member container inside
  exact held.evaluated.1.sound.acyclic container path

theorem Performs.loads (intact : assignment.Intact) :
    (∀ stride ∈ assignment.strides,
        stride.place.load assignment.last.scopes assignment.last.heap = .ok stride.container) ∧
      ∀ container ∈ assignment.place.handles, ∃ object,
        assignment.last.heap.get? container = some object := by
  apply performs.chain.loads held.last.1.balanced.heap (by simp [Place.handles])
  intro stride member alive
  have apart : ∀ container ∈ stride.place.handles, container ∉ assignment.place.handles :=
    fun _ => performs.apart held intact member
  refine performs.load_of_load ?_ apart alive (intact stride member)
  intro same
  obtain ⟨container, only⟩ := performs.chain.handles_last member
  exact apart container (by simp [same, only]) (by simp [only])

/-- Where the way is as it was, the keys lead from the variable to the object that has
been stored. -/
theorem Performs.readPath (chain : Chain
      (Stride.Leads licence Ledger.Orderly (assignment.last.ledger (hand.own assignment.copied)))
      (.binding assignment.position assignment.name) assignment.strides assignment.place)
    (proper : ∀ stride ∈ assignment.strides, stride.tree.hasNan = false)
    (intact : assignment.Intact)
    (kept : ∀ stride ∈ assignment.strides, stride.KeysKept assignment.last.heap) :
    ∃ root, assignment.last.lookup? assignment.name = some root ∧
      assignment.last.heap.readPath root (assignment.strides.map Stride.tree) =
        .ok assignment.stored := by
  obtain ⟨loads, alive⟩ := performs.loads held intact
  have resolved := (performs.keeps.resolve?_eq assignment.name).trans performs.resolved
  obtain ⟨root, found⟩ := Scopes.exists_get?_of_resolve? resolved
  have first : (Place.binding assignment.position assignment.name).load assignment.last.scopes
      assignment.last.heap = .ok root := by
    simp [Place.load, found]
  have loaded : assignment.place.load assignment.last.scopes assignment.last.heap =
      .ok assignment.stored := by
    have stored := performs.load_place held fun orderly => orderly.balanced
    apply Place.load_congr stored (fun _ => rfl)
    intro container member
    obtain ⟨object, living⟩ := alive container member
    have present := Heap.payload?_of_get? living
    exact present.trans ((Heap.Remains.releaseAll _ _).payload present).symm
  refine ⟨root, ?_, ?_⟩
  · rw [State.lookup?, Scopes.lookup?, resolved]
    exact found
  · apply held.last.1.sound.readPath_eq
    · intro tree member
      obtain ⟨stride, inside, rfl⟩ := List.mem_map.mp member
      exact proper stride inside
    · exact chain.readAlong proper kept loads first loaded

end

end Assignment

/-! ## Assignments in a session -/

namespace Ledger

theorem Sealed.step : Lasting ⟨False, False⟩ Sealed :=
  fun step sealed => (sealed.step_keepsKeys id id step).1

end Ledger

namespace Session

variable {session : Session}

/-- An assignment that gives a value stores it in the place to which its target was resolved
before the value was evaluated.  If the variable of the target and the slots on the way
still hold what they held when the value has been evaluated, and the dicts on the way
have their keys with the contents that they had, then new keys with the contents of those
that were used lead from the variable to the stored object, unless a NaN is in them.
The slots hold what they held if no index and not the value has a call or an
assignment in it, and the keys have their contents if the host passes new values
alone. -/
theorem Runs.assignments_read_back {program : Program} {builtins : BuiltinTable} {sink : Sink}
    {limit : Option Nat} (lawful : builtins.Lawful) {requests : List (Nat × Request)}
    (runs : Runs (start program builtins sink limit) requests session) {fuel : Nat}
    {request : Request} {moment : State} (visits : session.Visits fuel request moment) :
    (∀ {fuel : Nat} {id target value : ExpressionId} {span : Span} {copied : Address} {last : State},
      program.expression? id = some ⟨.assign target value, span⟩ →
      (Nested.withFuel ⟨program, builtins⟩ fuel).evaluate id moment = .value copied last →
      ∃ assignment : Assignment, assignment.Performs ⟨program, builtins⟩ target value moment ∧
        assignment.copied = copied ∧ assignment.last = last) ∧
    ∀ {target value : ExpressionId} {assignment : Assignment},
      assignment.Performs ⟨program, builtins⟩ target value moment →
      assignment.place.load assignment.written.scopes assignment.written.heap =
        .ok assignment.stored ∧
      ((∀ index ∈ assignment.indices, program.Quiet index) → program.Quiet value →
        assignment.Intact) ∧
      ((∀ entry ∈ requests, entry.2.SelfContained) → request.SelfContained →
        builtins.Abides False →
        ∀ stride ∈ assignment.strides, stride.KeysKept assignment.last.heap) ∧
      ((∀ stride ∈ assignment.strides, stride.tree.hasNan = false) → assignment.Intact →
        (∀ stride ∈ assignment.strides, stride.KeysKept assignment.last.heap) →
        ∃ root, assignment.last.lookup? assignment.name = some root ∧
          assignment.last.heap.readPath root (assignment.strides.map Stride.tree) =
            .ok assignment.stored) := by
  have idle : (start program builtins sink limit).state.Idle := State.idle_initial _ _ rfl
  have setup : session.interpreter.setup = ⟨program, builtins⟩ := (runs.sameControl idle).setup
  constructor
  · intro fuel id target value span copied last found ended
    exact @Assignment.performs_of_evaluate ⟨program, builtins⟩ _ _ _ _ _ _ _ _ found ended
  · intro target value assignment performs
    have upholds := runs.upholds Ledger.Orderly.hosted (by simp)
      (start_upholds lawful Ledger.Orderly.blank)
    obtain ⟨hand, orderly⟩ := upholds.visited Ledger.Orderly.hosted (by simp) visits
    have started : Holding Ledger.Orderly moment.calls.depth hand moment := ⟨orderly, rfl⟩
    have lasting := @Ledger.Orderly.step ⟨True, True⟩
    have orders : ∀ {ledger : Ledger}, ledger.Orderly → ledger.Orderly := id
    have abides := upholds.lawful.abides
    rw [setup] at abides
    have held := performs.held lasting abides (performs.standing lasting abides orders started)
    have balances : ∀ {ledger : Ledger}, ledger.Orderly → ledger.Balanced :=
      fun orderly => orderly.balanced
    refine ⟨performs.load_place held balances, performs.intact held balances, ?_, ?_⟩
    · intro contained nameless careful stride member
      have follows := runs.upholds Ledger.Follows.hosted (fun entry inside _ => contained entry inside)
        (start_upholds_abiding careful Ledger.Sealed.blank.follows)
      obtain ⟨hand, followed⟩ := follows.visited Ledger.Follows.hosted (fun _ => nameless) visits
      have chain := performs.leads Ledger.Sealed.step careful
        (fun sealed => sealed.exclusive.orderly) ⟨followed.sealed, rfl⟩
      obtain ⟨next, leads⟩ := chain.exists_of_mem member
      exact leads.keysKept
    · intro proper intact kept
      exact performs.readPath held (performs.leads lasting abides orders started) proper intact kept

/-- A function that binds a global to a copy of its argument, and the assignments of an
assignment to that global and of a literal to an element of it. -/
def overtaking : Program :=
  { rebinding with
    expressions := rebinding.expressions ++
      #[⟨.assign ⟨4⟩ ⟨5⟩, .empty⟩, ⟨.assign ⟨4⟩ ⟨0⟩, .empty⟩] }

theorem overtaking_quiet : overtaking.Quiet ⟨0⟩ :=
  @Program.Quiet.of_operands _ _ (.literal (.int 0)) .empty rfl (by simp) (by simp)
    (by simp [Expression.operands])

theorem overtaking_addresses : overtaking.Addresses ⟨4⟩ ⟨0⟩ [⟨0⟩] :=
  @Program.Addresses.index _ ⟨4⟩ ⟨1⟩ ⟨0⟩ [] [⟨0⟩] .empty rfl (.reference rfl)

/-- The call that binds the global to a vector. -/
def overtakingCall : Request :=
  .call ⟨0⟩ [.vector .int [.scalar (.int 1)]] none

/-- A literal is stored in an element, and read back. -/
theorem Runs.assignments_read_back_overtaking :
    ∃ (first second : Report) (middle session : Session) (assignment : Assignment) (root : Address),
      (start overtaking .standard .silent none).step 9 (.run [⟨0⟩]) = .ok (first, middle) ∧
      middle.step 9 overtakingCall = .ok (second, session) ∧
      (Nested.withFuel ⟨overtaking, .standard⟩ 9).evaluate ⟨7⟩ session.state =
        .value assignment.copied assignment.last ∧
      assignment.Performs ⟨overtaking, .standard⟩ ⟨4⟩ ⟨0⟩ session.state ∧
      assignment.last.lookup? ⟨0⟩ = some root ∧
      assignment.last.heap.readPath root (assignment.strides.map Stride.tree) =
        .ok assignment.stored := by
  have ran : ((start overtaking .standard .silent none).step 9 (.run [⟨0⟩])).toOption.any
      (fun declared => (declared.2.step 9 overtakingCall).toOption.any fun called =>
        ((Nested.withFuel ⟨overtaking, .standard⟩ 9).evaluate ⟨7⟩ called.2.state).value?.isSome &&
        (Assignment.perform? ⟨overtaking, .standard⟩ 9 ⟨0⟩ [⟨0⟩] ⟨0⟩ called.2.state).any
          fun assignment => assignment.indices = [⟨0⟩] && assignment.name = ⟨0⟩ &&
            assignment.strides.all fun stride => !stride.tree.hasNan) = true := by
    decide +kernel
  obtain ⟨first, middle, declared, ran⟩ := exists_step_of_any ran
  obtain ⟨second, session, called, ran⟩ := exists_step_of_any ran
  obtain ⟨evaluated, found⟩ := Bool.and_eq_true_iff.mp ran
  obtain ⟨assignment, performed, checked⟩ := (Option.any_eq_true _ _).mp found
  simp only [Bool.and_eq_true, decide_eq_true_eq, List.all_eq_true, Bool.not_eq_true'] at checked
  obtain ⟨⟨indices, name⟩, proper⟩ := checked
  have performs := Assignment.performs_of_perform? overtaking_addresses performed
  have runs := Runs.cons declared (.cons called (.nil session))
  have contained : ∀ entry ∈ [((9 : Nat), Request.run [⟨0⟩]), (9, overtakingCall)],
      entry.2.SelfContained := by
    simp [overtakingCall, Request.SelfContained, Description.namesAll, Description.names]
  obtain ⟨evaluates, reads⟩ := Runs.assignments_read_back BuiltinTable.standard_lawful runs
    (session.visits_start 8 ⟨0⟩)
  obtain ⟨_, intact, kept, back⟩ := reads performs
  have quiet : ∀ index ∈ assignment.indices, overtaking.Quiet index := by
    intro index member
    rw [indices, List.mem_singleton] at member
    exact member ▸ overtaking_quiet
  obtain ⟨root, looked, read⟩ := back proper (intact quiet overtaking_quiet)
    (kept contained trivial BuiltinTable.standard_abides)
  rw [name] at looked
  obtain ⟨⟨copied, last⟩, given⟩ := Option.isSome_iff_exists.mp evaluated
  have ended := Outcome.eq_of_value? given
  obtain ⟨same, performs', rfl, rfl⟩ := evaluates rfl ended
  cases performs.unique performs'
  exact ⟨first, second, middle, session, assignment, root, declared, called, ended, performs, looked,
    read⟩

/-- Where the value is an assignment to the variable, what is stored in the element is not
found there afterwards. -/
theorem assignments_overtaken :
    ∃ (first second : Report) (middle session : Session) (assignment : Assignment) (root : Address),
      (start overtaking .standard .silent none).step 9 (.run [⟨0⟩]) = .ok (first, middle) ∧
      middle.step 9 overtakingCall = .ok (second, session) ∧
      (Nested.withFuel ⟨overtaking, .standard⟩ 9).evaluate ⟨6⟩ session.state =
        .value assignment.copied assignment.last ∧
      assignment.Performs ⟨overtaking, .standard⟩ ⟨4⟩ ⟨5⟩ session.state ∧
      (∀ stride ∈ assignment.strides, stride.tree.hasNan = false) ∧
      assignment.last.lookup? assignment.name = some root ∧
      assignment.last.heap.readPath root (assignment.strides.map Stride.tree) ≠
        .ok assignment.stored := by
  have ran : ((start overtaking .standard .silent none).step 9 (.run [⟨0⟩])).toOption.any
      (fun declared => (declared.2.step 9 overtakingCall).toOption.any fun called =>
        ((Nested.withFuel ⟨overtaking, .standard⟩ 9).evaluate ⟨6⟩ called.2.state).value?.isSome &&
        (Assignment.perform? ⟨overtaking, .standard⟩ 9 ⟨0⟩ [⟨0⟩] ⟨5⟩ called.2.state).any
          fun assignment => (assignment.strides.all fun stride => !stride.tree.hasNan) &&
            (assignment.last.lookup? assignment.name).any fun root =>
              (assignment.last.heap.readPath root (assignment.strides.map Stride.tree)).toOption.all
                (· ≠ assignment.stored)) = true := by
    decide +kernel
  obtain ⟨first, middle, declared, ran⟩ := exists_step_of_any ran
  obtain ⟨second, session, called, ran⟩ := exists_step_of_any ran
  obtain ⟨evaluated, found⟩ := Bool.and_eq_true_iff.mp ran
  obtain ⟨assignment, performed, checked⟩ := (Option.any_eq_true _ _).mp found
  obtain ⟨proper, bound⟩ := Bool.and_eq_true_iff.mp checked
  obtain ⟨root, looked, read⟩ := (Option.any_eq_true _ _).mp bound
  have performs := Assignment.performs_of_perform? overtaking_addresses performed
  obtain ⟨⟨copied, last⟩, given⟩ := Option.isSome_iff_exists.mp evaluated
  have ended := Outcome.eq_of_value? given
  obtain ⟨same, performs', rfl, rfl⟩ := Assignment.performs_of_evaluate rfl ended
  cases performs.unique performs'
  refine ⟨first, second, middle, session, assignment, root, declared, called, ended, performs,
    by simpa using proper, looked, ?_⟩
  intro reads
  simp [reads, Except.toOption] at read

end Session

end ScriptEngine
