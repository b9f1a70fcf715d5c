import ScriptEngine.Proofs.Control.Failures
import ScriptEngine.Proofs.Hosting.Sessions
import ScriptEngine.Proofs.Ownership.Places

/-!
# Assignments

Where the host lends nothing, no container is in two slots, and the store of
an assignment leaves the value of every binding as it is but that of the one
from which its target leads away.
-/

namespace ScriptEngine

open Evaluation

/-- The value of a binding, apart from the identity of objects. -/
def State.value? (state : State) (position : Nat) (name : Name) : Option Tree :=
  (state.scopes.get? position name).map state.heap.tree

/-! ## What a store leaves alone -/

/-- Only a binding or the payload of one container is different, if objects that
are gone do not count. -/
structure Place.Spares (place : Place) (before after : State) : Prop where
  bindings : ∀ {position name}, place ≠ .binding position name →
    after.scopes.get? position name = before.scopes.get? position name
  cells : after.heap.cells.size = before.heap.cells.size
  objects : ∀ {address payload},
    (∀ container ∈ place.handles, before.heap.IsContainer container → address ≠ container) →
    after.heap.payload? address = some payload →
      before.heap.payload? address = some payload ∧
        after.heap.type address = before.heap.type address

namespace Place.Spares

variable {place : Place} {before after : State}

/-- Nothing is different, except that objects may be gone. -/
theorem of_remains (remains : before.heap.Remains after.heap)
    (bindings : ∀ {position name}, place ≠ .binding position name →
      after.scopes.get? position name = before.scopes.get? position name) :
    place.Spares before after :=
  ⟨bindings, remains.cells, fun _ found => ⟨remains.payload found, remains.type found⟩⟩

theorem storeIn {value : Address}
    (stored : storeIn place value before = .value () after ∨
      ∃ failure, storeIn place value before = .failure failure after) :
    place.Spares before after := by
  cases loaded : place.load before.scopes before.heap with
  | error cause =>
      rw [storeIn_of_error loaded] at stored
      obtain ⟨_, same⟩ := stored.resolve_left (by simp)
      cases same
      exact of_remains (Heap.Remains.releaseAll _ _) fun _ => rfl
  | ok previous =>
      have entered := Heap.Remains.enterSlot before.heap value
      cases leads_of_load loaded with
      | @binding position name same found =>
          subst same
          have written : (Place.binding position name).store before.scopes before.heap value =
              (.ok previous, before.scopes.modifyFrame position (·.put name value),
                (before.heap.enterSlot value).leaveSlot previous) := by
            rw [store, loaded]
            rfl
          rw [storeIn_of_store written] at stored
          cases stored.resolve_right (by simp)
          refine of_remains ?_ ?_
          · exact (entered.trans (Heap.Remains.leaveSlot _ _)).trans (Heap.Remains.releaseAll _ _)
          · intro position' name' different
            have kept := Scopes.get?_put position name value (Scopes.lt_depth_of_get? found)
              position' name'
            rw [if_neg (by rintro ⟨rfl, rfl⟩; exact different rfl)] at kept
            exact kept
      | @inside container object replaced only alive offered refills pointed =>
          have payload : (before.heap.enterSlot value).payload? container = some object.payload := by
            rw [Heap.payload?_enterSlot, Heap.payload?_of_get? alive]
          have written : place.store before.scopes before.heap value =
              (.ok previous, before.scopes,
                ((before.heap.enterSlot value).setPayload container (replaced value)).leaveSlot
                  previous) := by
            rw [store, loaded]
            simp only [pointed _ _ _ payload]
          rw [storeIn_of_store written] at stored
          cases stored.resolve_right (by simp)
          have left := (Heap.Remains.leaveSlot
            ((before.heap.enterSlot value).setPayload container (replaced value)) previous).trans
              (Heap.Remains.releaseAll _ [previous])
          refine ⟨fun _ => rfl, ?_, ?_⟩
          · have cells := left.cells
            rw [Heap.setPayload, Heap.size_modify] at cells
            exact cells.trans entered.cells
          · intro address content avoided found
            have different : container ≠ address := by
              have shaped : before.heap.IsContainer container :=
                ⟨object.payload, Heap.payload?_of_get? alive, (refills value).exchange.1⟩
              exact (avoided container (by simp [only]) shaped).symm
            have kept := left.payload found
            rw [Heap.payload?_setPayload_of_ne different] at kept
            have types := left.type found
            rw [Heap.type_setPayload, entered.type kept] at types
            exact ⟨entered.payload kept, types⟩

/-- What a store spares of the other bindings. -/
theorem value?_eq {hand hand' : Hand} {position position' : Nat} {name name' : Name}
    (spares : place.Spares before after)
    (leading : (before.ledger hand).Leading position name place)
    (balanced : (after.ledger hand').Balanced)
    (different : position' ≠ position ∨ name' ≠ name) :
    after.value? position' name' = before.value? position' name' := by
  have kept : after.scopes.get? position' name' = before.scopes.get? position' name' := by
    apply spares.bindings
    intro same
    obtain ⟨rfl, rfl⟩ := leading.binding same
    tauto
  rw [State.value?, State.value?, kept]
  cases found : before.scopes.get? position' name' with
  | none => rfl
  | some root =>
      have elsewhere : (before.ledger hand).Elsewhere position name root :=
        Or.inr ⟨position', name', different, found⟩
      have alike : ∀ {address}, before.heap.Reaches {root} address →
          (∃ object, after.heap.get? address = some object) →
            after.heap.payload? address = before.heap.payload? address ∧
              after.heap.type address = before.heap.type address := by
        rintro address reaches ⟨object, alive⟩
        have present := Heap.payload?_of_get? alive
        have avoided : ∀ container ∈ place.handles, before.heap.IsContainer container →
            address ≠ container := by
          rintro container member shape rfl
          exact (leading.guards member).apart shape root elsewhere reaches
        obtain ⟨payload, type⟩ := spares.objects avoided present
        exact ⟨present.trans payload.symm, type⟩
      have alive : ∀ {address}, before.heap.Reaches {root} address →
          ∃ object, after.heap.get? address = some object := by
        intro address reaches
        induction reaches with
        | root member =>
            rw [Multiset.mem_singleton.mp member]
            rw [found] at kept
            apply balanced.heap.alive
            simp [State.ledger, Scopes.mem_bound_of_get? kept]
        | slot reaches holds induction =>
            obtain ⟨payload, reached, member⟩ := holds
            rw [← (alike reaches induction).1] at reached
            have stored := Heap.mem_stored_iff_holds.mpr ⟨_, payload, reached, member⟩
            apply balanced.heap.alive
            simp [State.ledger, stored]
      rw [Option.map_some, Option.map_some, Heap.tree, Heap.tree, spares.cells]
      congr 1
      apply Heap.treeWithin_eq
      intro address reaches
      exact alike reaches (alive reaches)

end Place.Spares

/-! ## Assignments in a session -/

/-- The store of an assignment: the states between which it happens, once the
target has been walked and the value has been evaluated and copied. -/
inductive Evaluation.Stores (operands : Operands) (target value : ExpressionId)
    (start before after : State) : Prop where
  | intro {place : Place} {stored result : Address} {walked evaluated : State} :
      operands.target target start = .value place walked →
      operands.evaluate value walked = .value stored evaluated →
      copy stored evaluated = .value result before →
      (storeIn place stored before = .value () after ∨
        ∃ failure, storeIn place stored before = .failure failure after) →
      Stores operands target value start before after

namespace Evaluation

variable {α β : Type} {result : α} {start last : State}

theorem exists_of_bind {action : Evaluation β} {next : β → Evaluation α}
    (ended : (action >>= next) start = .value result last) :
    ∃ first middle, action start = .value first middle ∧
      next first middle = .value result last := by
  rw [bind_run] at ended
  cases outcome : action start with
  | value first middle =>
      rw [outcome] at ended
      exact ⟨first, middle, rfl, ended⟩
  | failure failure middle => simp [outcome] at ended
  | stopped reason => simp [outcome] at ended

theorem exists_of_holding {addresses : List Address} {body : Evaluation α}
    (ended : holding addresses body start = .value result last) :
    ∃ middle, body start = .value result middle ∧ last = middle.releaseAll addresses := by
  unfold holding ensuring at ended
  cases outcome : body start with
  | value first middle =>
      simp only [outcome, Outcome.value.injEq] at ended
      exact ⟨middle, by rw [ended.1], ended.2.symm⟩
  | failure failure middle => simp [outcome] at ended
  | stopped reason => simp [outcome] at ended

theorem value_of_guarding {addresses : List Address} {body : Evaluation α}
    (ended : guarding addresses body start = .value result last) :
    body start = .value result last := by
  unfold guarding at ended
  cases outcome : body start with
  | value first middle =>
      rw [outcome] at ended
      exact ended
  | failure failure middle => simp [outcome] at ended
  | stopped reason => simp [outcome] at ended

/-- An assignment that gives a value has walked its target, evaluated, copied and stored. -/
theorem exists_of_assign {operands : Operands} {target value : ExpressionId} {copied : Address}
    (assigned : assign operands target value start = .value copied last) :
    ∃ place walked stored evaluated before after,
      operands.target target start = .value place walked ∧
      operands.evaluate value walked = .value stored evaluated ∧
      copy stored evaluated = .value copied before ∧
      storeIn place stored before = .value () after ∧ last = after.releaseAll place.handles := by
  obtain ⟨place, walked, targeted, rest⟩ := exists_of_bind assigned
  obtain ⟨after, rest, released⟩ := exists_of_holding rest
  obtain ⟨stored, evaluated, valued, rest⟩ := exists_of_bind rest
  obtain ⟨copy, before, copies, rest⟩ := exists_of_bind rest
  obtain ⟨_, _, guarded, rest⟩ := exists_of_bind rest
  cases rest
  exact ⟨place, walked, stored, evaluated, before, after, targeted, valued, copies,
    value_of_guarding guarded, released⟩

/-- It gives back its handles after the store. -/
theorem stores_of_assign {operands : Operands} {target value : ExpressionId} {copied : Address}
    (assigned : assign operands target value start = .value copied last) :
    ∃ addresses before after, Stores operands target value start before after ∧
      last = after.releaseAll addresses := by
  obtain ⟨place, walked, stored, evaluated, before, after, targeted, valued, copies, writes,
    released⟩ := exists_of_assign assigned
  exact ⟨place.handles, before, after, .intro targeted valued copies (Or.inl writes), released⟩

end Evaluation

/-- The store leaves every binding as it is but the one that the target is
rooted at. -/
theorem Evaluation.Stores.value?_eq {setup : Setup} (lawful : setup.builtins.Lawful) {fuel : Nat}
    {target value : ExpressionId} {start before after : State} {hand : Hand}
    {position position' : Nat} {name name' : Name}
    (stores : Stores (Nested.withFuel setup fuel).toOperands target value start before after)
    (exclusive : (start.ledger hand).Exclusive) (rooted : setup.program.RootedAt name target)
    (resolved : start.scopes.resolve? name start.calls.scopeFloor = some position)
    (different : position' ≠ position ∨ name' ≠ name) :
    after.value? position' name' = before.value? position' name' := by
  have never : ¬ (Licence.mk False True).lends := id
  obtain @⟨place, assigned, copy, walked, evaluated, targeted, valued, copied, stored⟩ := stores
  have lasting := @Ledger.Leading.step _ position name never place
  have stable := Holding.stable lasting start.calls.depth
  have led := (target_leading never lawful.abides rooted fuel hand).of_value
    ⟨⟨exclusive, rfl⟩, resolved⟩ targeted
  have sound := (Nested.withFuel_sound lasting lawful.abides fuel).operands start.calls.depth
  have owned := (sound.evaluate value _).of_value led valued
  have copies := @Triple.copy _ _ (fun _ => True) ((hand.shareAll place.handles).own assigned) stable
    assigned
  have made := copies.of_value owned copied
  rw [Hand.own_own] at made
  have shared : ∀ container ∈ place.handles,
      container ∈ ((hand.shareAll place.handles).own copy).shared := by
    intro container member
    exact Multiset.mem_add.mpr (Or.inl member)
  have triple := storeIn_triple stable place assigned _ shared
  have balanced : ∃ hand, (after.ledger hand).Balanced := by
    rcases stored with same | ⟨failure, same⟩
    · exact ⟨_, (triple.of_value made same).1.exclusive.orderly.balanced⟩
    · exact ⟨_, (triple.of_failure made same).1.exclusive.orderly.balanced⟩
  obtain ⟨hand', balanced⟩ := balanced
  exact (Place.Spares.storeIn stored).value?_eq made.1 balanced different

namespace Ledger

theorem Exclusive.hosted {careless : Prop} : Hosted false careless Exclusive :=
  have never : ¬ (Licence.mk (false = true) careless).lends := Bool.false_ne_true
  ⟨Exclusive.step never, Lasting.describing (Exclusive.step never),
    fun exclusive => exclusive.orderly.balanced⟩

end Ledger

namespace Session

variable {session : Session}

/-- Where the host lends nothing, no two slots hold the same container, at any
moment.  So an assignment leaves every binding as it is but the one from which
its target leads away. -/
theorem Runs.nothing_shared {program : Program} {builtins : BuiltinTable} {sink : Sink}
    {limit : Option Nat} (lawful : builtins.Lawful) {requests : List (Nat × Request)}
    (runs : Runs (start program builtins sink limit) requests session)
    (contained : ∀ entry ∈ requests, entry.2.SelfContained) :
    session.state.heap.Unshared session.state.scopes.bound ∧
      ∀ {fuel : Nat} {request : Request} {moment : State}, request.SelfContained →
        session.Visits fuel request moment →
          moment.heap.Unshared moment.scopes.bound ∧
            ∀ {name : Name} {position : Nat} {target value : ExpressionId} {fuel : Nat}
              {before after : State},
              session.interpreter.setup.program.RootedAt name target →
              moment.scopes.resolve? name moment.calls.scopeFloor = some position →
              Evaluation.Stores (Nested.withFuel session.interpreter.setup fuel).toOperands
                target value moment before after →
              ∀ {position' : Nat} {name' : Name}, position' ≠ position ∨ name' ≠ name →
                after.value? position' name' = before.value? position' name' := by
  have upholds := runs.upholds Ledger.Exclusive.hosted
    (fun entry member _ => contained entry member)
    (start_upholds lawful ⟨Ledger.Orderly.blank, by
      intro address shape
      simp [State.ledger, Heap.stored_blank, Scopes.bound_blank]⟩)
  refine ⟨upholds.ledger.unshared, ?_⟩
  intro fuel request moment nameless visits
  obtain ⟨hand, exclusive⟩ := upholds.visited Ledger.Exclusive.hosted (fun _ => nameless) visits
  refine ⟨exclusive.unshared, ?_⟩
  intro name position target value fuel before after rooted resolved stores position' name' different
  exact stores.value?_eq upholds.lawful exclusive rooted resolved different

/-- A program in which one variable starts as a copy of another, to which a function binds
a copy of its argument. -/
def overwriting : Program where
  expressions :=
    #[⟨.literal (.int 0), .empty⟩, ⟨.reference ⟨0⟩, .empty⟩, ⟨.literal (.int 2), .empty⟩,
      ⟨.reference ⟨1⟩, .empty⟩, ⟨.assign ⟨1⟩ ⟨3⟩, .empty⟩, ⟨.index ⟨1⟩ [⟨0⟩], .empty⟩]
  statements :=
    #[⟨.declare ⟨0⟩ (some ⟨0⟩), .empty⟩, ⟨.declare ⟨1⟩ (some ⟨1⟩), .empty⟩,
      ⟨.expression ⟨4⟩, .empty⟩]
  functions := #[⟨.empty, [⟨⟨1⟩, .vector .int⟩], .none, ⟨[⟨2⟩], .empty⟩, .empty⟩]

/-- An element of the one vector is replaced, and the other vector, which is a copy of it,
keeps its element. -/
theorem Runs.nothing_shared_overwriting :
    ∃ session before after,
      Runs (start overwriting .standard .silent none) [(9, .run [⟨0⟩]),
        (9, .call ⟨0⟩ [.vector .int [.scalar (.int 1)]] none), (9, .run [⟨1⟩])] session ∧
      Evaluation.Stores (Nested.withFuel session.interpreter.setup 9).toOperands ⟨5⟩ ⟨2⟩
        session.state before after ∧
      (before.scopes.get? 0 ⟨1⟩).map (before.heap.render true) = some "[1]" ∧
      (after.scopes.get? 0 ⟨0⟩).map (after.heap.render true) = some "[2]" ∧
      after.value? 0 ⟨1⟩ = before.value? 0 ⟨1⟩ := by
  have ran : ((start overwriting .standard .silent none).step 9 (.run [⟨0⟩])).toOption.any
      (fun declared => (declared.2.step 9 (.call ⟨0⟩ [.vector .int [.scalar (.int 1)]]
        none)).toOption.any fun called =>
      (called.2.step 9 (.run [⟨1⟩])).toOption.any fun copied =>
      ((Nested.withFuel copied.2.interpreter.setup 9).target ⟨5⟩ copied.2.state).value?.any
        fun walked =>
      ((Nested.withFuel copied.2.interpreter.setup 9).evaluate ⟨2⟩ walked.2).value?.any
        fun evaluated =>
      (copy evaluated.1 evaluated.2).value?.any fun before =>
      (storeIn walked.1 evaluated.1 before.2).value?.any fun after =>
        copied.2.interpreter.setup.program.expression? ⟨1⟩ = some ⟨.reference ⟨0⟩, .empty⟩ &&
        copied.2.interpreter.setup.program.expression? ⟨5⟩ =
          some ⟨.index ⟨1⟩ [⟨0⟩], .empty⟩ &&
        copied.2.state.scopes.resolve? ⟨0⟩ copied.2.state.calls.scopeFloor = some 0 &&
        (before.2.scopes.get? 0 ⟨1⟩).map (before.2.heap.render true) = some "[1]" &&
        (after.2.scopes.get? 0 ⟨0⟩).map (after.2.heap.render true) = some "[2]") = true := by
    decide +kernel
  obtain ⟨_, _, declared, ran⟩ := exists_step_of_any ran
  obtain ⟨_, _, called, ran⟩ := exists_step_of_any ran
  obtain ⟨_, session, copied, ran⟩ := exists_step_of_any ran
  obtain ⟨place, walked, targeted, ran⟩ := Outcome.exists_of_any ran
  obtain ⟨stored, evaluated, valued, ran⟩ := Outcome.exists_of_any ran
  obtain ⟨result, before, duplicated, ran⟩ := Outcome.exists_of_any ran
  obtain ⟨_, after, written, ran⟩ := Outcome.exists_of_any ran
  simp only [Bool.and_eq_true, decide_eq_true_eq] at ran
  obtain ⟨⟨⟨⟨base, found⟩, resolved⟩, original⟩, replaced⟩ := ran
  have runs := Runs.cons declared (.cons called (.cons copied (.nil session)))
  have stores := Stores.intro targeted valued duplicated (Or.inl written)
  have nameless : (Request.execute ⟨0⟩).SelfContained := trivial
  have visits := session.visits_start 8 ⟨0⟩
  refine ⟨session, before, after, runs, stores, original, replaced, ?_⟩
  refine ((Runs.nothing_shared BuiltinTable.standard_lawful runs ?_).2 nameless visits).2
    (.index found (.reference base)) resolved stores (by simp)
  simp [Request.SelfContained, Description.names, Description.namesAll]

end Session

end ScriptEngine
