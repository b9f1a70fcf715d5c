import ScriptEngine.Proofs.Custody.Runs
import ScriptEngine.Proofs.Ownership.Guards

/-!
# Guarded places

The target of an assignment is a variable or a chain of indices on one.  The
place it leads to is the binding of the variable, or lies in a container that
the binding guards, whatever the evaluation of the indices did meanwhile.
-/

namespace ScriptEngine

open Evaluation

/-- The expressions that name a variable or lead away from it by indices. -/
inductive Program.RootedAt (program : Program) (name : Name) : ExpressionId → Prop where
  | reference {id : ExpressionId} {span : Span} :
      program.expression? id = some ⟨.reference name, span⟩ → RootedAt program name id
  | index {id base : ExpressionId} {indices : List ExpressionId} {span : Span} :
      program.expression? id = some ⟨.index base indices, span⟩ →
      RootedAt program name base → RootedAt program name id

namespace Ledger

/-- A container that a binding guards. -/
structure Guarding (position : Nat) (name : Name) (container : Address) (ledger : Ledger) :
    Prop where
  exclusive : ledger.Exclusive
  guards : ledger.Guards position name container

/-- A binding, or a place in a container that it guards. -/
structure Leading (position : Nat) (name : Name) (place : Place) (ledger : Ledger) : Prop where
  exclusive : ledger.Exclusive
  binding : ∀ {position' name'}, place = .binding position' name' →
    position' = position ∧ name' = name
  guards : ∀ {container}, container ∈ place.handles → ledger.Guards position name container

variable {ledger : Ledger} {licence : Licence} {position : Nat} {name : Name}

theorem Guarding.step (never : ¬ licence.lends) {container : Address} :
    Lasting licence (Guarding position name container) := by
  rintro before after step ⟨exclusive, guards⟩
  exact ⟨Exclusive.step never step exclusive,
    (Guards.step never step ⟨exclusive.orderly, guards⟩).2⟩

theorem Leading.step (never : ¬ licence.lends) {place : Place} :
    Lasting licence (Leading position name place) := by
  rintro before after step ⟨exclusive, binding, guards⟩
  refine ⟨Exclusive.step never step exclusive, binding, ?_⟩
  intro container member
  exact (Guards.step never step ⟨exclusive.orderly, guards member⟩).2

/-- What is in a place is guarded like the place. -/
theorem Leading.load {place : Place} {value : Address} (leading : ledger.Leading position name place)
    (loaded : place.load ledger.scopes ledger.heap = .ok value) :
    ledger.Guarding position name value := by
  refine ⟨leading.exclusive, ?_⟩
  cases Place.leads_of_load loaded with
  | binding same found =>
      obtain ⟨rfl, rfl⟩ := leading.binding same
      exact leading.exclusive.guards found
  | @inside container object _ only alive offered _ _ =>
      have guards : ledger.Guards position name container := by
        apply leading.guards
        rw [only]
        exact List.mem_singleton_self container
      exact guards.child leading.exclusive ⟨object.payload, Heap.payload?_of_get? alive,
        Payload.mem_children_of_mem_offers offered⟩

/-- The places inside a guarded container. -/
theorem Guarding.leading {place : Place} {container : Address}
    (guarding : ledger.Guarding position name container) (only : place.handles = [container]) :
    ledger.Leading position name place := by
  refine ⟨guarding.exclusive, ?_, ?_⟩
  · rintro position' name' rfl
    simp [Place.handles] at only
  · intro other member
    rw [only, List.mem_singleton] at member
    rw [member]
    exact guarding.guards

end Ledger

namespace Evaluation

variable {licence : Licence} {setup : Setup} {operands : Operands} {position depth : Nat} {name : Name}

theorem loadPlace_guarding (never : ¬ licence.lends) (place : Place) (hand : Hand)
    (handles : ∀ container ∈ place.handles, container ∈ hand.shared) :
    Triple (Holding (Ledger.Leading position name place) depth hand) (loadPlace place)
      (fun address =>
        Holding (Ledger.Guarding position name address) depth (hand.share address))
      (fun _ => True) := by
  apply Triple.bind Triple.read
  intro result
  refine Triple.bind (Triple.ofExcept fun _ _ => trivial) ?_
  intro address state held
  obtain ⟨⟨⟨leading, calls⟩, viewed⟩, same⟩ := held
  have loaded := viewed.symm.trans same
  have kept : Holding (Ledger.Guarding position name address) depth hand state :=
    ⟨leading.load loaded, calls⟩
  exact (Holding.stable (Ledger.Guarding.step never) depth).share kept
    (Place.shown_of_load loaded handles)

/-- One index further. -/
theorem placeStep_leading (never : ¬ licence.lends)
    (sound : ∀ container, operands.Sound
      (Holding (Ledger.Guarding position name container) depth))
    (index : ExpressionId) (place : Place) (hand : Hand) :
    Triple (Holding (Ledger.Leading position name place) depth (hand.shareAll place.handles))
      (holding place.handles do
        let container ← loadPlace place
        holding [container] do
          let key ← operands.evaluate index
          located (setup.program.spanOf index) (locateForWriting container key))
      (fun next => Holding (Ledger.Leading position name next) depth (hand.shareAll next.handles))
      (fun _ => True) := by
  apply Triple.ensuring
  apply Triple.bind
  · apply loadPlace_guarding never place
    intro container member
    exact Multiset.mem_add.mpr (Or.inl member)
  · intro container
    have stable := Holding.stable
      (@Ledger.Guarding.step licence position name never container) depth
    apply (innerPlace_triple stable (sound container) index container _).weaken
    · intro state held
      exact held
    · rintro next state ⟨⟨guarding, calls⟩, only⟩
      have held : Holding (Ledger.Leading position name next) depth
          ((hand.shareAll next.handles).shareAll place.handles) state := by
        rw [Hand.shareAll_comm]
        exact ⟨guarding.leading only, calls⟩
      exact (Holding.stable (Ledger.Leading.step never) depth).giveBack held
    · exact fun _ _ => trivial

theorem placeChain_leading (never : ¬ licence.lends)
    (sound : ∀ container, operands.Sound
      (Holding (Ledger.Guarding position name container) depth))
    (indices : List ExpressionId) (place : Place) (hand : Hand) :
    Triple (Holding (Ledger.Leading position name place) depth (hand.shareAll place.handles))
      (placeChain setup operands place indices)
      (fun next => Holding (Ledger.Leading position name next) depth (hand.shareAll next.handles))
      (fun _ => True) := by
  induction indices generalizing place with
  | nil => exact Triple.pure fun state held => held
  | cons index others induction =>
      apply Triple.bind (placeStep_leading never sound index place hand)
      intro next
      exact induction next

/-- The binding that a name is resolved to. -/
theorem bindingPlace_leading (hand : Hand) :
    Triple
      (fun state => Holding Ledger.Exclusive depth hand state ∧
        state.scopes.resolve? name state.calls.scopeFloor = some position)
      (bindingPlace setup name)
      (fun place =>
        Holding (Ledger.Leading position name place) depth (hand.shareAll place.handles))
      (fun _ => True) := by
  rintro state ⟨⟨exclusive, calls⟩, resolved⟩
  unfold bindingPlace
  rw [bind_run]
  simp only [read, resolved]
  refine ⟨?_, calls⟩
  rw [Place.handles, Hand.shareAll_nil]
  refine ⟨exclusive, ?_, ?_⟩
  · intro position' name' same
    cases same
    exact ⟨rfl, rfl⟩
  · intro container member
    simp [Place.handles] at member

/-- The place that a target leads to lies in what the binding guards, to which
its variable was resolved when the walk began. -/
theorem target_leading (never : ¬ licence.lends) (abides : setup.builtins.Abides licence.careless)
    {target : ExpressionId}
    (rooted : setup.program.RootedAt name target) (fuel : Nat) (hand : Hand) :
    Triple
      (fun state => Holding Ledger.Exclusive depth hand state ∧
        state.scopes.resolve? name state.calls.scopeFloor = some position)
      ((Nested.withFuel setup fuel).target target)
      (fun place =>
        Holding (Ledger.Leading position name place) depth (hand.shareAll place.handles))
      (fun _ => True) := by
  induction rooted generalizing fuel with
  | @reference id span found =>
      cases fuel with
      | zero => exact Triple.stop (by simp)
      | succ fuel =>
          show Triple _ (withExpression setup id _) _ _
          rw [withExpression, found]
          exact Triple.located (bindingPlace_leading hand)
  | @index id base indices span found _ induction =>
      cases fuel with
      | zero => exact Triple.stop (by simp)
      | succ fuel =>
          show Triple _ (withExpression setup id _) _ _
          rw [withExpression, found]
          apply Triple.bind (induction fuel)
          intro place
          apply placeChain_leading never
          intro container
          exact (Nested.withFuel_sound (Ledger.Guarding.step never) abides fuel).operands depth

end Evaluation

end ScriptEngine
