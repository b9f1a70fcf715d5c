import ScriptEngine.Proofs.Abreast.Literals

/-!
# Literals that are kept earlier

Of two runs the first may have kept some literals before the second does.  Nothing is linked
to what it keeps for them, until the second run keeps them too.  So an expression that has
been evaluated goes side by side with its first evaluation, from which it differs in the
literals that are there already.
-/

namespace ScriptEngine

open Evaluation

variable {program : Program} {depth : Nat} {hands : Hands} {state other : State} {links : Links}
variable {id another : ExpressionId} {address : Address}

/-- No object is kept for two literals. -/
theorem Holding.literal_injective {hand : Hand} (held : Holding Ledger.Orderly depth hand state)
    (kept : state.literal? id = some address) (kept' : state.literal? another = some address) :
    id = another := by
  have distinct : (state.literals.toList.filterMap fun entry => entry).Nodup :=
    Multiset.coe_nodup.mp held.1.tidy.literals
  rw [List.Nodup, List.pairwise_filterMap] at distinct
  have entry := Option.join_eq_some_iff.mp kept
  have entry' := Option.join_eq_some_iff.mp kept'
  rw [← Array.getElem?_toList, List.getElem?_eq_some_iff] at entry entry'
  obtain ⟨small, found⟩ := entry
  obtain ⟨small', found'⟩ := entry'
  have apart := List.pairwise_iff_getElem.mp distinct
  rcases Nat.lt_trichotomy id.index another.index with less | same | more
  · exact absurd rfl (apart _ _ small small' less address found address found')
  · exact congrArg ExpressionId.mk same
  · exact absurd rfl (apart _ _ small' small more address found' address found)

/-! ## The second run keeps a literal too -/

theorem State.Joined.spare (joined : State.Joined (.ahead program) hands state other links)
    (kept : state.literal? id = some address) (missing : other.literal? id = none) :
    state.Spare program links id address := by
  rcases joined.keeps id with both | ⟨_, address', spare⟩
  · rw [kept, missing] at both
    cases both
  · cases kept.symm.trans spare.kept
    exact spare

/-- With the object that the second run keeps, the earlier one of the first is linked. -/
theorem Caching.Keeps.catchUp {value : Scalar} {hand : Hand}
    (keeps : (Caching.ahead program).Keeps links state
      { other with heap := (other.keepLiteral id value).2.heap })
    (held : Holding Ledger.Orderly depth hand state) (kept : state.literal? id = some address) :
    (Caching.ahead program).Keeps (links.insert address (other.keepLiteral id value).1) state
      (other.keepLiteral id value).2 := by
  intro another
  rw [State.literal?_keepLiteral]
  by_cases same : another.index = id.index
  · obtain rfl : another = id := congrArg ExpressionId.mk same
    rw [kept, if_pos rfl]
    exact Or.inl (.some (Or.inl ⟨rfl, rfl⟩))
  · rw [if_neg same]
    rcases keeps another with both | ⟨none, address', spare⟩
    · exact Or.inl (rel_imp both Or.inr)
    · refine Or.inr ⟨none, address', spare.kept, spare.stands, ?_⟩
      rintro counterpart (⟨rfl, _⟩ | linked)
      · exact same (congrArg ExpressionId.index (held.literal_injective spare.kept kept))
      · exact spare.unlinked counterpart linked

namespace Linked

/-- What the first run has kept earlier stands for what the second keeps. -/
theorem catchUp {literal : Literal} {span : Span}
    (found : program.expression? id = some ⟨.literal literal, span⟩)
    (linked : Linked (.ahead program) depth hands state other)
    (kept : state.literal? id = some address) (missing : other.literal? id = none) :
    let value := literal.scalar program.names
    Linked (.ahead program) depth (hands.own (address, (other.keepLiteral id value).1))
      { state with heap := state.heap.retain address } (other.keepLiteral id value).2 := by
  intro value
  obtain ⟨links, joined⟩ := linked.joined
  have left : Holding Ledger.Orderly depth
      (hands.own (address, (other.keepLiteral id value).1)).left
      { state with heap := state.heap.retain address } := by
    rw [Hands.left_own]
    exact (stable depth).onHeap linked.left
      (.duplicate (Or.inr (State.mem_literals_of_literal? kept _)))
  -- before the cache takes it, the new object has a second handle at hand
  have created := (stable depth).create (Heap.Fashioned.newScalar other.heap value).makes
    linked.right
  have made := (stable depth).onHeap created
    (.duplicate (Or.inl ⟨value, other.heap.scalar?_newScalar value⟩))
  have right : Holding Ledger.Orderly depth
      (hands.own (address, (other.keepLiteral id value).1)).right
      (other.keepLiteral id value).2 := by
    rw [Hands.right_own]
    exact (stable depth).keepLiteral linked.right missing value
  have survives : Heap.Survives state.heap (state.heap.retain address) :=
    (Heap.Remains.retain _ _).survives
  have survives' : Heap.Survives other.heap (other.keepLiteral id value).2.heap :=
    (Heap.Crafted.newScalar other.heap value).survives.trans (Heap.Remains.retain _ _).survives
  have spare := joined.spare kept missing
  obtain ⟨_, _, known, payload, type⟩ := spare.stands
  cases found.symm.trans known
  have there := (Heap.payload?_retain state.heap address address).trans payload
  have typed := (survives.steady payload (by simp [there])).2.trans type
  have along := joined.along
  apply adopt joined left right ⟨along.scopes, along.calls, along.loops, along.output⟩ survives
    survives' there (other.payload?_keepLiteral id value)
    (typed.trans (other.type_keepLiteral id value).symm) le_rfl
    (Or.inl fun linked => spare.unlinked _ linked)
  exact (joined.keeps.carry left made rfl rfl survives.steady (fun linked => linked)
    (.of_imp fun linked => linked.1)).catchUp left kept

end Linked

theorem Evaluation.literal_ahead_abreast {value : Literal} {span : Span}
    (found : program.expression? id = some ⟨.literal value, span⟩) (hands : Hands) :
    Abreast (Linked (.ahead program) depth hands) (literal program.names id value)
      (literal program.names id value)
      (fun address other => Linked (.ahead program) depth (hands.own (address, other)))
      (Linked (.ahead program) depth hands) :=
  literal_abreast_of_ahead (show ¬ (Caching.ahead program).Loose from not_false) _ _
    fun linked kept missing => linked.catchUp found kept missing

/-- Quiet expressions go side by side with themselves, although one run is ahead. -/
theorem Nested.quiet_ahead (setup : Setup) (fuel : Nat) :
    (withFuel setup fuel).toOperands.Abreast (.ahead setup.program) depth setup.program.Quiet
      (withFuel setup fuel).toOperands :=
  quiet_abreast_of_literals setup literal_ahead_abreast fuel

/-! ## After an evaluation -/

variable {before after : State} {among : ExpressionId → Prop} {hand : Hand}

/-- What is cached for the first time is linked to nothing that there was. -/
theorem State.Caches.keeps (caches : Caches program among before after)
    (held : Holding Ledger.Orderly depth hand before) {hand' : Hand}
    (held' : Holding Ledger.Orderly depth hand' after) :
    (Caching.ahead program).Keeps (before.heap.same.within after.heap before.heap) after before := by
  intro id
  cases kept : before.literal? id with
  | some address =>
      have kept' := caches.literals kept
      have present := held.literal_present kept
      rw [kept']
      exact Or.inl (.some ⟨⟨rfl, present⟩, held'.literal_present kept', present⟩)
  | none =>
      cases kept' : after.literal? id with
      | none => exact Or.inl .none
      | some address =>
          obtain ⟨_, _, literal, span, found, stands⟩ := caches.cached kept kept'
          obtain ⟨payload, alive⟩ := Option.ne_none_iff_exists'.mp (held'.literal_present kept')
          obtain ⟨rfl, type⟩ := stands alive
          refine Or.inr ⟨rfl, address, kept', ⟨literal, span, found, alive, type⟩, ?_⟩
          rintro other ⟨⟨rfl, present⟩, _⟩
          obtain ⟨content, old⟩ := Option.ne_none_iff_exists'.mp present
          rcases caches.fresh kept' with known | ⟨_, young⟩
          · exact absurd (kept.symm.trans known) (by simp)
          · exact Nat.not_le_of_lt (Heap.lt_size_of_payload? old) young

/-- The state that a quiet expression leaves is linked to the one it was evaluated in. -/
theorem Linked.ahead {aside : List Address} (caches : before.Caches program among after)
    (held : Holding Ledger.Orderly depth hand before)
    (held' : Holding Ledger.Orderly depth (hand.shareAll aside) after) :
    Linked (.ahead program) depth { hand.twice with asideLeft := aside } after before := by
  have along := held.along_same
  have left : Holding Ledger.Orderly depth
      (Hands.left { hand.twice with asideLeft := aside }) after := by
    simpa [Hands.left, Hand.twice, Hand.shareAll, add_comm] using held'
  have right : Holding Ledger.Orderly depth
      (Hands.right { hand.twice with asideLeft := aside }) before := by
    simpa [Hands.right, Hand.twice] using held
  refine @advance _ _ _ _ _ before.heap.same _ left right
    ⟨?_, ?_, caches.loops, caches.output⟩ held.same_of_has (caches.keeps held held') ?_ id
  · rw [caches.scopes]
    exact along.scopes
  · rw [caches.calls]
    exact along.calls
  · exact (Heap.Matches.refl held.sound.balanced.closed).survive caches.heap.survives (.refl _)
      held'.sound.balanced.closed held.sound.balanced.closed

end ScriptEngine
