import ScriptEngine.Proofs.Ownership.Guards
import ScriptEngine.Proofs.Ownership.Shelter

/-!
# Secluded objects

An object that nothing leads to but handles that take no part in a run keeps what it holds:
a run fills slots with what it refers to, and only writes to containers that it refers to.
-/

namespace ScriptEngine

namespace Ledger

variable {licence : Licence} {before after ledger : Ledger} {address : Address}
variable {payload : Payload}

/-- Everything that is referred to from outside of containers. -/
def references (ledger : Ledger) : Multiset Address :=
  ledger.kept + ledger.lent

theorem references_of_shared (shared : address ∈ ledger.shared) : address ∈ ledger.references := by
  simp [references, lent, shared]

theorem leads (ledger : Ledger) (known : address ∈ ledger.references) :
    ∃ origin ∈ ledger.references, ledger.heap.Reaches {origin} address :=
  ⟨address, known, .root (Multiset.mem_singleton_self address)⟩

/-- Nothing that the ledger refers to leads to the address, if there is a container. -/
def Secludes (address : Address) (ledger : Ledger) : Prop :=
  ledger.heap.Shields (· ∈ ledger.references) address

/-- A step on which nothing becomes a reference that was not in reach. -/
theorem Secludes.remains (secludes : before.Secludes address)
    (remains : before.heap.Remains after.heap)
    (kept : ∀ {root}, root ∈ after.references →
      (∃ origin ∈ before.references, before.heap.Reaches {origin} root) ∨
        ¬ before.heap.IsContainer root) : after.Secludes address :=
  (Heap.Shields.widen secludes).remains remains kept

/-- A step on which only references go. -/
theorem Secludes.reduce (secludes : before.Secludes address)
    (remains : before.heap.Remains after.heap)
    (fewer : ∀ {root}, root ∈ after.references → root ∈ before.references) :
    after.Secludes address :=
  secludes.remains remains fun member => Or.inl (before.leads (fewer member))

theorem Secludes.craft (secludes : ledger.Secludes address) {heap : Heap}
    {given made owned : Multiset Address} (crafted : Heap.Crafted ledger.heap given heap made)
    (split : ledger.owned = given + owned) :
    Secludes address { ledger with heap := heap, owned := made + owned } := by
  have crafting := Heap.Shields.crafting address fun root => root ∈ ledger.results + ledger.lent
  have started : ledger.heap.Shields
      (fun root => root ∈ 0 + (given + owned) ∨ root ∈ ledger.results + ledger.lent) address := by
    apply Heap.Shields.mono secludes
    intro root member
    rw [zero_add, ← split, ← Multiset.mem_add, ← add_assoc] at member
    exact member
  apply (crafted crafting started).mono
  intro root member
  rw [zero_add, ← Multiset.mem_add, ← add_assoc]
  exact member

theorem Secludes.withDefault (secludes : ledger.Secludes address) (type : StaticType) :
    (ledger.withDefault type).Secludes address :=
  secludes.craft (Heap.Crafted.newDefault ledger.heap type) (zero_add ledger.owned).symm

theorem Secludes.amends (amends : before.Amends after) (secludes : before.Secludes address) :
    after.Secludes address := by
  apply amends.shields (Heap.Shields.widen secludes)
  · intro root member
    exact before.leads (by simp [references, kept, member])
  · cases amends with
    | @intro container object payload added removed owned shared found _ _ exchanged given =>
        intro root member
        have either : root ∈ removed ∨ root ∈ before.references := by
          simp only [references, kept, lent, given, Multiset.mem_add, Multiset.mem_coe] at member ⊢
          tauto
        rcases either with taken | known
        · have inside : root ∈ (added : Multiset Address) + object.payload.children := by
            rw [← exchanged]
            exact Multiset.mem_add.mpr (Or.inl taken)
          rcases Multiset.mem_add.mp inside with new | child
          · exact before.leads (by simp [references, kept, given, Multiset.mem_coe.mp new])
          · refine ⟨container, references_of_shared shared, ?_⟩
            exact .slot (.root (Multiset.mem_singleton_self _))
              ⟨object.payload, Heap.payload?_of_get? found, child⟩
        · exact before.leads known

theorem Secludes.step : Lasting licence (Secludes address) := by
  intro before after step secludes
  cases step with
  | craft makes split => exact secludes.craft makes.crafted split
  | cache value =>
      have made := secludes.craft (Heap.Crafted.newScalar before.heap value) (zero_add _).symm
      refine made.reduce (Heap.Remains.retain _ _) ?_
      intro root member
      simp only [references, kept, lent, Multiset.mem_add, Multiset.mem_cons,
        Multiset.mem_singleton] at member ⊢
      tauto
  | @duplicate other scalar =>
      refine secludes.remains (Heap.Remains.retain _ _) ?_
      intro root member
      rw [references, kept, Multiset.cons_add, Multiset.cons_add, Multiset.mem_cons] at member
      rcases member with rfl | known
      · rcases scalar with ⟨value, found⟩ | literal
        · exact Or.inr (Heap.not_isContainer_of_scalar? found)
        · exact Or.inl (before.leads (by simp [references, lent, literal]))
      · exact Or.inl (before.leads known)
  | @share other shown =>
      refine secludes.remains (Heap.Remains.retain _ _) ?_
      intro root member
      rw [references, lent, Multiset.cons_add, Multiset.add_cons, Multiset.mem_cons] at member
      rcases member with rfl | known
      · obtain ⟨origin, lent, reaches⟩ := shown.reaches
        exact Or.inl ⟨origin, Multiset.mem_add.mpr (Or.inr lent), reaches⟩
      · exact Or.inl (before.leads known)
  | @lower other owned given =>
      refine secludes.reduce (Heap.Remains.refl _) ?_
      intro root member
      simp only [references, kept, lent, given, Multiset.mem_add, Multiset.mem_cons] at member ⊢
      tauto
  | giveBack given =>
      refine secludes.reduce (Heap.Remains.release _ _) ?_
      intro root member
      simp only [references, kept, lent, given, Multiset.mem_add, Multiset.mem_cons] at member ⊢
      tauto
  | @bind hand lent position name value previous? inside previous given allowed =>
      refine secludes.reduce ((Heap.Remains.enterSlot _ _).trans (Heap.Remains.leaveSlots _ _)) ?_
      intro root member
      have rebound := @Scopes.mem_of_rebound _ _ _ _ value root previous
      cases lent with
      | false =>
          simp only [references, kept, Ledger.lent, given, Hand.carry_false, Hand.own,
            Hand.shareAll, Multiset.mem_add, Multiset.mem_cons, Multiset.mem_coe] at member ⊢
          grind
      | true =>
          simp only [references, kept, Ledger.lent, given, Hand.carry_true, Hand.share,
            Hand.shareAll, Multiset.mem_add, Multiset.mem_cons, Multiset.mem_coe] at member ⊢
          grind
  | push => exact secludes.reduce (Heap.Remains.refl _) (by simp [references, lent, kept])
  | @pop frame last =>
      refine secludes.reduce (Heap.Remains.leaveSlots _ _) ?_
      intro root member
      simp only [references, kept, lent, Scopes.bound_dropFrame last, Multiset.mem_add] at member ⊢
      tauto
  | skip depth => exact secludes.reduce (Heap.Remains.refl _) (by simp [references, lent, kept])
  | amend shared found refills given =>
      exact secludes.amends (amends_of_refills shared found refills given)
  | extend shared payload absent given =>
      exact (secludes.withDefault _).amends (amends_of_extends shared payload given)
  | @keep value owned given =>
      refine secludes.reduce (Heap.Remains.setPinned _ _ _) ?_
      intro root member
      simp only [references, kept, lent, given, Multiset.mem_add, Multiset.mem_cons] at member ⊢
      tauto
  | @take value results given =>
      refine secludes.reduce (Heap.Remains.setPinned _ _ _) ?_
      intro root member
      simp only [references, kept, lent, given, Multiset.mem_add, Multiset.mem_cons] at member ⊢
      tauto
  | @handBack arguments value owned given within =>
      refine secludes.remains
        ((Heap.Remains.retain before.heap value).trans (Heap.Remains.releaseAll _ arguments)) ?_
      intro root member
      rw [references, kept, Multiset.cons_add, Multiset.cons_add, Multiset.mem_cons] at member
      rcases member with rfl | known
      · obtain ⟨argument, passed, reaches⟩ := within.reaches
        refine Or.inl ⟨argument, ?_, reaches⟩
        simp [references, kept, given, Multiset.mem_coe.mp passed]
      · refine Or.inl (before.leads ?_)
        simp only [references, kept, lent, given, Multiset.mem_add] at known ⊢
        tauto

/-- An object out of reach, with what it holds as long as it is there. -/
structure Conserves (address : Address) (payload : Payload) (ledger : Ledger) : Prop where
  secludes : ledger.Secludes address
  payload : ledger.heap.payload? address ≠ none →
    ledger.heap.payload? address = some payload

theorem Conserves.step : Lasting licence (Conserves address payload) := by
  intro before after step conserves
  refine ⟨Secludes.step step conserves.secludes, fun alive => ?_⟩
  have same := step.payload?_eq conserves.secludes.small (fun shared shape same => by
    subst same
    exact conserves.secludes.apart shape _ (references_of_shared shared)
      (.root (Multiset.mem_singleton_self _))) alive
  rw [same] at alive ⊢
  exact conserves.payload alive

end Ledger

end ScriptEngine
