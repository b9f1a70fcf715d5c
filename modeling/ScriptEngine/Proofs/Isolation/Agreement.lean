import ScriptEngine.Proofs.Abreast.Literals
import ScriptEngine.Proofs.Isolation.Bareness
import ScriptEngine.Proofs.Isolation.Seclusion

/-!
# What calls can get at

A call can get at the root frame, the literals that are kept, the output and its arguments,
and at all that these lead to.  Two states may agree on that whatever the frames of the
callers are.  What the callers hold is out of reach of a call if no container that it leads
to can be got at.
-/

namespace ScriptEngine

theorem Heap.Matches.resembling {left right left' right' : Heap} {links : Links} {loose : Prop}
    (agree : left.Matches right links loose) (same : left'.Resembles left)
    (same' : right'.Resembles right) : left'.Matches right' links loose := by
  constructor
  · intro first second linked
    obtain ⟨payload, other, found, found', related⟩ := agree.payload linked
    exact ⟨payload, other, (same.payload?_eq first).trans found,
      (same'.payload?_eq second).trans found', related⟩
  · intro first second linked
    rw [same.type_eq, same'.type_eq]
    exact agree.type linked
  · exact agree.only
  · intro first second other linked linked'
    rw [same.payload?_eq]
    exact agree.shared linked linked'

theorem Heap.Sound.reached_present {heap : Heap} {slots handles : Multiset Address}
    {address : Address} (sound : heap.Sound slots handles)
    (reaches : heap.Reaches (slots + handles) address) : heap.payload? address ≠ none := by
  obtain ⟨object, alive⟩ := sound.balanced.alive_of_reaches reaches
  simp [Heap.payload?_of_get? alive]

/-- What is held by handles that are put aside is there in the end, as it was. -/
theorem Heap.Sound.payload?_of_kept {before after : Heap} {slots slots' : Multiset Address}
    {handles handles' : Multiset Address} {value address : Address}
    (sound : before.Sound slots handles) (sound' : after.Sound slots' handles')
    (held : value ∈ handles) (held' : value ∈ handles')
    (keeps : ∀ {address payload}, before.Reaches {value} address →
      before.payload? address = some payload → after.payload? address ≠ none →
        after.payload? address = some payload)
    (reaches : before.Reaches {value} address) :
    after.payload? address = before.payload? address := by
  -- Holders keep what they hold, so the way to the address is still there.
  have same : ∀ {address}, before.Reaches {value} address → after.Reaches {value} address →
      after.payload? address = before.payload? address := by
    intro address reaches reaches'
    have present : before.payload? address ≠ none := sound.reached_present <| reaches.mono
      fun member => Multiset.mem_add.mpr (Or.inr (Multiset.mem_singleton.mp member ▸ held))
    have present' : after.payload? address ≠ none := sound'.reached_present <| reaches'.mono
      fun member => Multiset.mem_add.mpr (Or.inr (Multiset.mem_singleton.mp member ▸ held'))
    obtain ⟨payload, found⟩ := Option.ne_none_iff_exists'.mp present
    rw [found]
    exact keeps reaches found present'
  have still : after.Reaches {value} address := by
    induction reaches with
    | root member => exact .root member
    | slot reaches holds induction =>
        obtain ⟨payload, found, child⟩ := holds
        exact .slot induction ⟨payload, (same reaches induction).trans found, child⟩
  exact same reaches still

/-- Handles that are put aside, and no others. -/
def Hands.apart (left right : Multiset Address) : Hands :=
  { owned := 0, shared := 0, asideLeft := left, asideRight := right }

@[simp] theorem Hands.left_apart (left right : Multiset Address) :
    (Hands.apart left right).left = ⟨0, left⟩ := by
  simp [Hands.apart, Hands.left]

@[simp] theorem Hands.right_apart (left right : Multiset Address) :
    (Hands.apart left right).right = ⟨0, right⟩ := by
  simp [Hands.apart, Hands.right]

namespace State

/-! ## What calls can and cannot get at -/

/-- Calls can get at the object: the root frame, a literal or an argument leads to it. -/
def Accessible (state : State) (arguments : List Address) (address : Address) : Prop :=
  state.heap.Reaches
    ((arguments : Multiset Address) +
      ((state.scopes.root.values : List Address) +
        (state.literals.toList.reduceOption : List Address)))
    address

/-- States that agree on what a call can get at: the root frame, the literals that are kept,
the output and the arguments, with all that these lead to. -/
structure Agree (links : Links) (arguments others : List Address) (state other : State) :
    Prop where
  root : state.scopes.root.Along links other.scopes.root
  literals : ∀ id : ExpressionId, Option.Rel links (state.literal? id) (other.literal? id)
  output : state.output = other.output
  arguments : List.Forall₂ links arguments others
  heap : state.heap.Matches other.heap links False

/-- What is linked also reads the same. -/
structure Corresponds (links : Links) (results others : List Address) (state other : State) : Prop
    extends Agree links results others state other where
  tree : ∀ {first second}, links first second → state.heap.tree first = other.heap.tree second

/-- Calls cannot get at any container that the value leads to. -/
def Secluded (state : State) (arguments : List Address) (value : Address) : Prop :=
  ∀ address, state.heap.Reaches {value} address → state.heap.IsContainer address →
    ¬ state.Accessible arguments address

/-- What callers have: frames, and what is bound in them, with all that it leads to. -/
structure Spares (arguments : List Address) (state after : State) : Prop where
  scopes : after.scopes.nested = state.scopes.nested
  loops : after.loops = state.loops
  calls : after.calls.frames = state.calls.frames
  contents : ∀ {frame value address}, frame ∈ state.scopes.nested → value ∈ frame.values →
    state.Secluded arguments value → state.heap.Reaches {value} address →
      after.heap.payload? address = state.heap.payload? address

variable {state other last after : State} {heap heap' : Heap} {links : Links}
variable {arguments others : List Address} {given aside aside' : Multiset Address}
variable {value address : Address} {payload : Payload} {hand : Hand}

/-- With what the callers hold put aside, the calls can run side by side. -/
theorem Agree.linked (agree : Agree links arguments others state other)
    (same : heap.Resembles state.heap) (same' : heap'.Resembles other.heap)
    (orderly : ((state.bare heap).ledger ⟨0, arguments + aside⟩).Orderly)
    (orderly' : ((other.bare heap').ledger ⟨0, others + aside'⟩).Orderly) :
    Linked .both 0 ((Hands.apart aside aside').shareAll (arguments.zip others)) (state.bare heap)
      (other.bare heap') := by
  have lengths := agree.arguments.length_eq
  refine ⟨⟨?_, rfl⟩, ⟨?_, rfl⟩, links, ⟨⟨.cons agree.root .nil, ⟨.nil, rfl⟩, rfl, agree.output⟩,
    ?_, agree.heap.resembling same same', agree.literals⟩⟩
  · rw [Hands.left_shareAll, Hands.left_apart, List.map_fst_zip lengths.le]
    exact orderly
  · rw [Hands.right_shareAll, Hands.right_apart, List.map_snd_zip lengths.ge]
    exact orderly'
  · intro first second has
    rcases Hands.has_shareAll_iff.mp has with member | none
    · exact (List.forall₂_iff_zip.mp agree.arguments).2 member
    · simp [Hands.Has, Hands.apart] at none

theorem Accessible.present (orderly : (state.ledger (hand.shareAll arguments)).Orderly)
    (accessible : state.Accessible arguments address) : state.heap.payload? address ≠ none := by
  refine Heap.Sound.reached_present orderly.sound (accessible.mono fun {start} member => ?_)
  simp only [Multiset.mem_add, Multiset.mem_coe] at member
  simp only [Multiset.mem_add, Ledger.handles, ledger, Hand.shareAll, Multiset.mem_coe,
    Scopes.bound, Scopes.frames, List.flatMap_cons, List.mem_append]
  tauto

/-- States in which calls can get at the same objects agree. -/
theorem Agree.of_accessible (orderly : (other.ledger (hand.shareAll arguments)).Orderly)
    (root : state.scopes.root = other.scopes.root) (literals : state.literals = other.literals)
    (output : state.output = other.output)
    (objects : ∀ {address}, other.Accessible arguments address →
      state.heap.payload? address = other.heap.payload? address ∧
        state.heap.type address = other.heap.type address) :
    Agree (fun first second => first = second ∧ other.Accessible arguments second) arguments
      arguments state other := by
  have known : ∀ {address}, address ∈ arguments ∨ address ∈ other.scopes.root.values ∨
      address ∈ (other.literals.toList.reduceOption : List Address) →
        other.Accessible arguments address := by
    intro address member
    exact .root (by simpa using member)
  refine ⟨⟨?_, by rw [root]⟩, ?_, output, ?_, ⟨?_, ?_, ?_, ?_⟩⟩
  · rw [root]
    exact List.forall₂_same.mpr fun binding inside =>
      ⟨rfl, rfl, known (Or.inr (Or.inl (List.mem_map_of_mem inside)))⟩
  · intro id
    rw [State.literal?, literals, ← State.literal?]
    exact Option.rel_same fun address kept =>
      ⟨rfl, known (Or.inr (Or.inr (mem_literals_of_literal? kept hand)))⟩
  · exact List.forall₂_same.mpr fun address inside => ⟨rfl, known (Or.inl inside)⟩
  · rintro first second ⟨rfl, accessible⟩
    obtain ⟨payload, found⟩ := Option.ne_none_iff_exists'.mp (accessible.present orderly)
    refine ⟨payload, payload, (objects accessible).1.trans found, found, .self ?_⟩
    exact fun child inside => ⟨rfl, .slot accessible ⟨payload, found, inside⟩⟩
  · rintro first second ⟨rfl, accessible⟩
    exact (objects accessible).2
  · rintro first other second ⟨rfl, _⟩ ⟨rfl, _⟩
    rfl
  · rintro first second other ⟨rfl, _⟩ ⟨rfl, _⟩
    exact Or.inl rfl

/-- What is secluded is not referred to by what a call can get at. -/
theorem Secluded.conserves (secluded : state.Secluded arguments value)
    (reaches : state.heap.Reaches {value} address) (same : heap.Resembles state.heap)
    (found : heap.payload? address = some payload) :
    ((state.bare heap).ledger ⟨0, arguments⟩).Conserves address payload := by
  refine ⟨⟨Heap.lt_size_of_payload? found, ?_⟩, fun _ => found⟩
  intro container root known reached
  have there : state.heap.IsContainer address := by
    rw [Heap.IsContainer, ← same.payload?_eq]
    exact container
  apply secluded address reaches there
  apply (reached.transport fun {other} _ => (same.payload?_eq other).symm).mono
  intro start member
  rw [Multiset.mem_singleton.mp member]
  simpa [Ledger.references, Ledger.kept, Ledger.lent, ledger, bare, Scopes.bound, Scopes.frames,
    Calls.results] using known

/-- A container of scalars that nothing else refers to is secluded. -/
theorem Secluded.of_unheld (absent : value ∉ arguments ∧ value ∉ state.scopes.root.values ∧
      value ∉ state.literals.toList.reduceOption)
    (unheld : ∀ holder, ¬ state.heap.Holds holder value)
    (flat : ∀ child, state.heap.Holds value child → ¬ state.heap.IsContainer child) :
    state.Secluded arguments value := by
  intro address reaches container accessible
  have only : address = value := by
    have within : address = value ∨ state.heap.Holds value address := by
      clear accessible container
      induction reaches with
      | root member => exact Or.inl (Multiset.mem_singleton.mp member)
      | slot _ holds induction =>
          rcases induction with rfl | child
          · exact Or.inr holds
          · exact absurd holds.isContainer (flat _ child)
    exact within.resolve_right fun child => flat address child container
  rw [only] at accessible
  cases accessible with
  | root member =>
      simp only [Multiset.mem_add, Multiset.mem_coe] at member
      tauto
  | slot _ holds => exact unheld _ holds

/-! ## What is left of a run -/

/-- The frames of the callers are on their own again after a call. -/
theorem Spares.of_lift (lift : state.callers.Lift ⟨0, 0, 0⟩ last after)
    (same : heap.Resembles state.heap)
    (orderly : ((state.bare heap).ledger ⟨0, given + aside⟩).Orderly)
    (covers : ∀ {frame value}, frame ∈ state.scopes.nested → value ∈ frame.values → value ∈ aside)
    (orderly' : (last.ledger hand).Orderly)
    (within : ∀ {value}, value ∈ aside → value ∈ hand.shared)
    (keeps : ∀ {value address payload}, state.Secluded arguments value →
      state.heap.Reaches {value} address → heap.payload? address = some payload →
        last.heap.payload? address ≠ none → last.heap.payload? address = some payload) :
    state.Spares arguments after := by
  have nothing : last.height = ⟨0, 0, 0⟩ := lift.height
  have noScopes : last.scopes.nested = #[] := by
    simpa [State.height] using congrArg Height.scopes nothing
  have noLoops : last.loops.frames = #[] := by
    simpa [State.height, Loops.depth] using congrArg Height.loops nothing
  have noCalls : last.calls.frames = #[] := by
    simpa [State.height, Calls.depth] using congrArg Height.calls nothing
  have scopes := lift.scopes.nested
  have loops := lift.loops.frames
  have calls := lift.calls.frames
  simp only [noScopes, noLoops, noCalls, callers, List.append_nil, List.map_nil,
    Array.toList_inj] at scopes loops calls
  refine ⟨scopes, congrArg Loops.mk loops, calls, ?_⟩
  intro frame value address member inside secluded reaches
  have held := covers member inside
  rw [← lift.heap.payload?_eq, ← same.payload?_eq]
  apply Heap.Sound.payload?_of_kept orderly.sound orderly'.sound
  · exact Hand.mem_handles (state.bare heap) (Or.inr (Multiset.mem_add.mpr (Or.inr held)))
  · exact Hand.mem_handles last (Or.inr (within held))
  · intro address payload reaches
    exact keeps secluded (reaches.transport fun {other} _ => (same.payload?_eq other).symm)
  · exact reaches.transport fun {other} _ => same.payload?_eq other

end State

/-- What two runs end with corresponds, if the calls were made above callers. -/
theorem Linked.corresponds {hands : Hands} {callers callers' : Callers}
    {height height' : Height} {last last' after after' : State} {results others : List Address}
    (linked : Linked .both 0 hands last last') (lift : callers.Lift height last after)
    (lift' : callers'.Lift height' last' after') (has : List.Forall₂ hands.Has results others) :
    ∃ links, State.Corresponds links results others after after' := by
  obtain ⟨links, joined⟩ := linked.joined
  refine ⟨links, ⟨⟨?_, ?_, ?_, has.imp fun _ _ => joined.has, ?_⟩, ?_⟩⟩
  · rw [lift.scopes.root, lift'.scopes.root]
    exact (List.forall₂_cons.mp joined.along.scopes).1
  · intro id
    rw [State.literal?, State.literal?, ← lift.literals, ← lift'.literals]
    exact joined.keeps id
  · rw [← lift.output, ← lift'.output]
    exact joined.along.output
  · exact joined.agree.resembling lift.heap.symm lift'.heap.symm
  · intro first second both
    rw [← lift.heap.tree_eq, ← lift'.heap.tree_eq]
    exact joined.agree.tree_eq linked.left.sound.grounded linked.right.sound.grounded both

end ScriptEngine
