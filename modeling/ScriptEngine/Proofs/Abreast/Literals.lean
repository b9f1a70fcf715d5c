import ScriptEngine.Proofs.Abreast.Walks
import ScriptEngine.Proofs.Control.Quiet

/-!
# Literals side by side

Where both runs keep literals, one is at hand in both or in neither, unless the first run is
ahead.  Quiet expressions go side by side, as long as they have the same fuel, if literals do.
-/

namespace ScriptEngine

variable {depth : Nat} {hands : Hands} {state other : State}

/-! ## A run beside itself -/

/-- Every handle with itself. -/
def Hand.twice (hand : Hand) : Hands where
  owned := hand.owned.map fun address => (address, address)
  shared := hand.shared.map fun address => (address, address)

@[simp] theorem Hand.left_twice (hand : Hand) : hand.twice.left = hand := by
  simp [twice, Hands.left]

@[simp] theorem Hand.right_twice (hand : Hand) : hand.twice.right = hand := by
  simp [twice, Hands.right]

/-- Every object that is there, with itself. -/
def Heap.same (heap : Heap) : Links :=
  fun first second => first = second ∧ heap.payload? first ≠ none

namespace Heap

variable {heap : Heap}

theorem Matches.refl {loose : Prop}
    (closed : ∀ {holder child}, heap.Holds holder child → heap.payload? child ≠ none) :
    heap.Matches heap heap.same loose where
  payload := by
    rintro first second ⟨rfl, present⟩
    obtain ⟨payload, found⟩ := Option.ne_none_iff_exists'.mp present
    have related : ∀ child ∈ payload.children, heap.same child child :=
      fun child member => ⟨rfl, closed ⟨payload, found, member⟩⟩
    exact ⟨payload, payload, found, found, .self related⟩
  type := by
    rintro first second ⟨rfl, _⟩
    rfl
  only := by
    rintro first other second ⟨rfl, _⟩ ⟨rfl, _⟩
    rfl
  shared := by
    rintro first second other ⟨rfl, _⟩ ⟨rfl, _⟩
    exact Or.inl rfl

end Heap

theorem Option.rel_same {relation : Address → Address → Prop} {found : Option Address}
    (related : ∀ address, found = some address → relation address address) :
    Option.Rel relation found found := by
  cases found with
  | none => exact .none
  | some address => exact .some (related address rfl)

namespace Holding

variable {hand : Hand} (held : Holding Ledger.Orderly depth hand state)
include held

theorem along_same : state.Along state.heap.same state := by
  refine ⟨?_, ?_, rfl, rfl⟩
  · apply List.forall₂_same.mpr
    intro frame member
    refine ⟨List.forall₂_same.mpr fun binding inside => ⟨rfl, rfl, ?_⟩, rfl⟩
    exact held.sound.slot_present
      (List.mem_flatMap.mpr ⟨frame, member, List.mem_map_of_mem inside⟩)
  · refine ⟨List.forall₂_same.mpr fun frame member => ⟨rfl, rfl, rfl, rfl, rfl, ?_⟩, rfl⟩
    apply Option.rel_same
    intro address kept
    exact ⟨rfl, held.result_present (List.mem_filterMap.mpr ⟨frame, member, kept⟩)⟩

theorem same_of_has {first second : Address} (has : hand.twice.Has first second) :
    state.heap.same first second := by
  rcases has with member | member
  · obtain ⟨address, inside, same⟩ := Multiset.mem_map.mp member
    cases same
    exact ⟨rfl, held.present (Or.inl inside)⟩
  · obtain ⟨address, inside, same⟩ := Multiset.mem_map.mp member
    cases same
    exact ⟨rfl, held.present (Or.inr inside)⟩

end Holding

namespace Linked

theorem reflexive {caching : Caching} {hand : Hand} (held : Holding Ledger.Orderly depth hand state)
    (keeps : caching.Keeps state.heap.same state state) :
    Linked caching depth hand.twice state state := by
  refine ⟨?_, ?_, state.heap.same, held.along_same, held.same_of_has, ?_, keeps⟩
  · rwa [Hand.left_twice]
  · rwa [Hand.right_twice]
  · exact .refl held.sound.balanced.closed

theorem refl {hand : Hand} (held : Holding Ledger.Orderly depth hand state) :
    Linked .both depth hand.twice state state :=
  reflexive held fun _ => Option.rel_same fun _ kept => ⟨rfl, held.literal_present kept⟩

end Linked

/-! ## Literals that are kept -/

variable {caching : Caching} {links : Links} {id : ExpressionId}

theorem Caching.Keeps.keepLiteral {value : Scalar} (tight : ¬ caching.Loose)
    (keeps : caching.Keeps links { state with heap := (state.keepLiteral id value).2.heap }
      { other with heap := (other.keepLiteral id value).2.heap })
    (linked : links (state.keepLiteral id value).1 (other.keepLiteral id value).1) :
    caching.Keeps links (state.keepLiteral id value).2 (other.keepLiteral id value).2 := by
  cases caching with
  | first program => exact absurd trivial tight
  | both =>
      intro another
      rw [State.literal?_keepLiteral, State.literal?_keepLiteral]
      split
      · exact .some linked
      · exact keeps another
  | ahead program =>
      intro another
      rw [State.literal?_keepLiteral, State.literal?_keepLiteral]
      by_cases same : another.index = id.index
      · rw [if_pos same, if_pos same]
        exact Or.inl (.some linked)
      · rw [if_neg same, if_neg same]
        apply (keeps another).imp_right
        rintro ⟨missing, address, spare⟩
        refine ⟨missing, address, ?_, spare.stands, spare.unlinked⟩
        rw [State.literal?_keepLiteral, if_neg same]
        exact spare.kept

/-- What the second run keeps, the first keeps as well. -/
theorem State.Joined.literal? (tight : ¬ caching.Loose)
    (joined : State.Joined caching hands state other links) {second : Address}
    (kept : other.literal? id = some second) :
    ∃ first, state.literal? id = some first ∧ links first second := by
  have of_rel : Option.Rel links (state.literal? id) (other.literal? id) →
      ∃ first, state.literal? id = some first ∧ links first second := by
    intro both
    rcases cases_of_rel both with ⟨_, none⟩ | ⟨first, another, found, found', linked⟩
    · exact absurd (kept.symm.trans none) (by simp)
    · cases kept.symm.trans found'
      exact ⟨first, found, linked⟩
  have keeps := joined.keeps
  cases caching with
  | first program => exact absurd trivial tight
  | both => exact of_rel (keeps id)
  | ahead program =>
      rcases keeps id with both | ⟨none, _⟩
      · exact of_rel both
      · exact absurd (kept.symm.trans none) (by simp)

/-- Both runs keep a literal. -/
theorem Linked.keepLiteral (tight : ¬ caching.Loose)
    (linked : Linked caching depth hands state other) (missing : state.literal? id = none)
    (missing' : other.literal? id = none) (value : Scalar) :
    Linked caching depth
      (hands.own ((state.keepLiteral id value).1, (other.keepLiteral id value).1))
      (state.keepLiteral id value).2 (other.keepLiteral id value).2 := by
  have made := linked.create (Heap.Fashioned.newScalar state.heap value).makes
    (Heap.Fashioned.newScalar other.heap value).makes fun joined => joined.agree.newScalar value
  obtain ⟨links, joined⟩ := (made.duplicate (state.heap.scalar?_newScalar value) fun joined =>
    joined.has (Hands.has_own_iff.mpr (Or.inl rfl))).joined
  have has : ∀ {first second}, (hands.own ((state.keepLiteral id value).1,
      (other.keepLiteral id value).1)).Has first second → links first second :=
    fun held => joined.has (Hands.has_own_iff.mpr (Or.inr held))
  refine ⟨?_, ?_, links, ⟨joined.along.scopes, joined.along.calls, joined.along.loops,
    joined.along.output⟩, has, joined.agree, ?_⟩
  · rw [Hands.left_own]
    exact (stable depth).keepLiteral linked.left missing value
  · rw [Hands.right_own]
    exact (stable depth).keepLiteral linked.right missing' value
  · exact joined.keeps.keepLiteral tight (has (Hands.has_own_iff.mpr (Or.inl rfl)))

namespace Evaluation

/-- A literal goes side by side with itself, if it does where only the first run has kept
it. -/
theorem literal_abreast_of_ahead (tight : ¬ caching.Loose) (names : Interner) (value : Literal)
    (ahead : ∀ {state other : State} {address : Address},
      Linked caching depth hands state other → state.literal? id = some address →
        other.literal? id = none →
          Linked caching depth
            (hands.own (address, (other.keepLiteral id (value.scalar names)).1))
            { state with heap := state.heap.retain address }
            (other.keepLiteral id (value.scalar names)).2) :
    Abreast (Linked caching depth hands) (literal names id value) (literal names id value)
      (fun address other => Linked caching depth (hands.own (address, other)))
      (Linked caching depth hands) := by
  intro state state' linked
  unfold literal
  cases kept' : state'.literal? id with
  | none =>
      cases kept : state.literal? id with
      | none => exact .value (linked.keepLiteral tight kept kept' _)
      | some address => exact .value (ahead linked kept kept')
  | some second =>
      obtain ⟨links, joined⟩ := linked.joined
      obtain ⟨first, kept, _⟩ := joined.literal? tight kept'
      rw [kept]
      apply Outcome.Abreast.value
      apply linked.retain
      · rw [Hands.left_own]
        exact (Linked.stable depth).onHeap linked.left
          (.duplicate (Or.inr (State.mem_literals_of_literal? kept _)))
      · rw [Hands.right_own]
        exact (Linked.stable depth).onHeap linked.right
          (.duplicate (Or.inr (State.mem_literals_of_literal? kept' _)))
      · intro links joined known counterpart held
        rcases Hands.has_own_iff.mp held with same | held
        · obtain ⟨rfl, rfl⟩ := Prod.mk.inj same
          obtain ⟨first, found, known⟩ := joined.literal? tight kept'
          cases kept.symm.trans found
          exact known
        · exact joined.has held

theorem literal_abreast (names : Interner) (id : ExpressionId) (value : Literal) :
    Abreast (Linked .both depth hands) (literal names id value) (literal names id value)
      (fun address other => Linked .both depth (hands.own (address, other)))
      (Linked .both depth hands) := by
  apply literal_abreast_of_ahead (show ¬ Caching.both.Loose from not_false) names value
  intro state other address linked kept kept'
  obtain ⟨links, joined⟩ := linked.joined
  have both := joined.keeps id
  rw [kept, kept'] at both
  cases both

end Evaluation

open Evaluation

/-- Quiet expressions go side by side with themselves, if literals do. -/
theorem Nested.quiet_abreast_of_literals (setup : Setup)
    (literals : ∀ {id value span}, setup.program.expression? id = some ⟨.literal value, span⟩ →
      ∀ hands, Abreast (Linked caching depth hands) (literal setup.program.names id value)
        (literal setup.program.names id value)
        (fun address other => Linked caching depth (hands.own (address, other)))
        (Linked caching depth hands)) (fuel : Nat) :
    (withFuel setup fuel).toOperands.Abreast caching depth setup.program.Quiet
      (withFuel setup fuel).toOperands := by
  induction fuel with
  | zero => exact ⟨fun _ _ => Abreast.stop (by simp), fun _ _ => Abreast.stop (by simp)⟩
  | succ fuel induction =>
      constructor
      · intro id quiet hands
        apply withExpression_abreast
        intro node span found
        obtain ⟨callless, assignless⟩ := quiet .root found
        apply expression_abreast induction
        · exact fun operand member => quiet.operand found member
        · rintro value rfl
          exact literals found hands
        · exact fun callee arguments same => absurd same (callless callee arguments)
        · exact fun target value same => absurd same (assignless target value)
      · intro id quiet hands
        apply withExpression_abreast
        intro node span found
        exact sharedExpression_abreast induction quiet fun operand member =>
          quiet.operand found member

/-- Quiet expressions go side by side with themselves. -/
theorem Nested.quiet_abreast (setup : Setup) (fuel : Nat) :
    (withFuel setup fuel).toOperands.Abreast .both depth setup.program.Quiet
      (withFuel setup fuel).toOperands :=
  quiet_abreast_of_literals setup (fun _ _ => literal_abreast _ _ _) fuel

end ScriptEngine
