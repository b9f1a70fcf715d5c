import ScriptEngine.Proofs.Ownership.Reachability
import ScriptEngine.Proofs.Ownership.Unshared

/-!
# Guarded containers

A container that belongs to one binding stays out of reach of everything else:
what is owned or kept as a result, and every other binding, lead to other
objects for as long as a run goes on.  Slots are filled with owned values
alone, and those do not lead to it either.
-/

namespace ScriptEngine

namespace Heap

variable {heap before after : Heap} {container : Address}

/-- Ways that lead through slots of given objects alone. -/
theorem Reaches.of_gained {fresh : Address → Prop} {root address : Address}
    (gained : ∀ {holder child}, after.Holds holder child →
      before.Holds holder child ∨ fresh child)
    (reaches : after.Reaches {root} address) :
    before.Reaches {root} address ∨ ∃ child, fresh child ∧ before.Reaches {child} address := by
  induction reaches with
  | root member => exact Or.inl (.root member)
  | @slot holder child reaches holds induction =>
      rcases gained holds with old | new
      · rcases induction with reached | ⟨start, fresh, reached⟩
        · exact Or.inl (.slot reached old)
        · exact Or.inr ⟨start, fresh, .slot reached old⟩
      · exact Or.inr ⟨child, new, .root (Multiset.mem_singleton_self child)⟩

theorem Reaches.eq_of_not_isContainer {root address : Address}
    (reaches : heap.Reaches {root} address) (simple : ¬ heap.IsContainer root) :
    address = root := by
  induction reaches with
  | root member => exact Multiset.mem_singleton.mp member
  | slot _ holds induction =>
      subst induction
      exact absurd holds.isContainer simple

/-- No root leads to an address, if there is a container. -/
structure Shields (heap : Heap) (roots : Address → Prop) (container : Address) : Prop where
  small : container < heap.cells.size
  apart : heap.IsContainer container → ∀ root, roots root → ¬ heap.Reaches {root} container

namespace Shields

variable {roots roots' : Address → Prop}

/-- Only roots get into slots, and the new roots are no containers. -/
theorem gain {fresh : Address → Prop} (shields : before.Shields roots container)
    (grown : before.cells.size ≤ after.cells.size)
    (containers : after.IsContainer container → before.IsContainer container)
    (gained : ∀ {holder child}, after.Holds holder child →
      before.Holds holder child ∨ fresh child)
    (rooted : ∀ {child}, fresh child → roots child)
    (kept : ∀ {root}, roots' root → roots root ∨ ¬ before.IsContainer root) :
    after.Shields roots' container := by
  refine ⟨Nat.lt_of_lt_of_le shields.small grown, ?_⟩
  intro shape root member reaches
  have earlier := containers shape
  rcases Reaches.of_gained gained reaches with reached | ⟨child, new, reached⟩
  · rcases kept member with old | simple
    · exact shields.apart earlier root old reached
    · rw [reached.eq_of_not_isContainer simple] at earlier
      exact simple earlier
  · exact shields.apart earlier child (rooted new) reached

theorem remains (shields : before.Shields roots container) (remains : Remains before after)
    (kept : ∀ {root}, roots' root → roots root ∨ ¬ before.IsContainer root) :
    after.Shields roots' container := by
  have nothing : ∀ {holder child}, after.Holds holder child →
      before.Holds holder child ∨ False := fun holds => Or.inl (remains.holds holds)
  exact shields.gain remains.size remains.isContainer nothing False.elim kept

theorem mono (shields : heap.Shields roots container)
    (fewer : ∀ {root}, roots' root → roots root) : heap.Shields roots' container :=
  ⟨shields.small, fun shape root member => shields.apart shape root (fewer member)⟩

/-- What roots lead to could be roots as well. -/
theorem widen (shields : heap.Shields roots container) :
    heap.Shields (fun address => ∃ root, roots root ∧ heap.Reaches {root} address) container := by
  refine ⟨shields.small, ?_⟩
  rintro shape address ⟨root, member, reached⟩ reaches
  exact shields.apart shape root member (reached.trans reaches)

theorem crafting (container : Address) (others : Address → Prop) :
    Crafting fun heap pending owned =>
      heap.Shields (fun root => root ∈ pending + owned ∨ others root) container where
  enter {heap pending owned address} shields := by
    apply shields.remains (Remains.enterSlot heap address)
    intro root member
    simpa using Or.inl member
  leave {heap pending owned address} shields := by
    apply shields.remains (Remains.leaveSlot heap address)
    intro root member
    simpa using Or.inl member
  release {heap pending owned address} shields := by
    apply shields.remains (Remains.release heap address)
    intro root member
    simp only [Multiset.add_cons, Multiset.mem_cons]
    tauto
  allocate {heap pending owned} payload type shields := by
    have gained : ∀ {holder child}, (heap.allocate type payload).2.Holds holder child →
        heap.Holds holder child ∨ child ∈ payload.children :=
      fun holds => (holds_allocate holds).symm.imp_right And.right
    refine shields.gain ?_ ?_ gained ?_ ?_
    · rw [size_allocate]
      exact Nat.le_succ _
    · exact fun shape => isContainer_of_isContainer_allocate shape shields.small
    · intro child member
      simp [member]
    · intro root member
      rw [Multiset.add_cons, Multiset.mem_cons] at member
      by_cases new : root = heap.cells.size
      · subst new
        exact Or.inr fun shape => Nat.lt_irrefl _ shape.lt_size
      · have old := member.imp_left fun inside => inside.resolve_left new
        simp only [Multiset.mem_add] at old ⊢
        tauto

end Shields

end Heap

namespace Scopes

variable {scopes : Scopes} {position : Nat} {name : Name} {value : Address}

theorem get?_of_dropFrame {frame : ScopeFrame} (last : scopes.nested.back? = some frame)
    (found : scopes.dropFrame.get? position name = some value) :
    scopes.get? position name = some value := by
  obtain ⟨inner, member, binds⟩ := get?_eq_some_iff.mp found
  rw [get?_eq_some_iff, frames_dropFrame last]
  exact ⟨inner, List.getElem?_append_left (List.getElem?_eq_some_iff.mp member).1 ▸ member, binds⟩

theorem get?_of_push (found : scopes.push.get? position name = some value) :
    scopes.get? position name = some value := by
  obtain ⟨frame, member, binds⟩ := get?_eq_some_iff.mp found
  rw [frames_push, List.getElem?_append] at member
  split at member
  · exact get?_eq_some_iff.mpr ⟨frame, member, binds⟩
  · rw [List.getElem?_singleton] at member
    split at member
    · cases member
      simp [ScopeFrame.get?] at binds
    · simp at member

/-- Two bindings of one object are two slots. -/
theorem two_le_count_bound (distinct : scopes.Distinct) {position' : Nat} {name' : Name}
    (found : scopes.get? position name = some value)
    (again : scopes.get? position' name' = some value)
    (different : position' ≠ position ∨ name' ≠ name) : 2 ≤ scopes.bound.count value := by
  -- Another object takes over the first binding, and the second one is still there.
  have exchanged := distinct.bound_exchanged (lt_depth_of_get? found) found (value + 1)
  have still : (scopes.modifyFrame position (·.put name (value + 1))).get? position' name' =
      some value := by
    rw [get?_put position name (value + 1) (lt_depth_of_get? found), if_neg (by tauto)]
    exact again
  have positive := Multiset.count_pos.mpr (mem_bound_of_get? still)
  have counts := congrArg (Multiset.count value) exchanged
  rw [Option.toList_some, Multiset.coe_singleton, Multiset.singleton_add, Multiset.count_cons_self,
    Multiset.count_cons_of_ne (Nat.succ_ne_self value).symm] at counts
  omega

end Scopes

namespace Ledger

/-- What is owned or kept as a result, and what other names are bound to. -/
def Elsewhere (ledger : Ledger) (position : Nat) (name : Name) (root : Address) : Prop :=
  root ∈ ledger.kept ∨
    ∃ position' name', (position' ≠ position ∨ name' ≠ name) ∧
      ledger.scopes.get? position' name' = some root

/-- A container to which at most one binding leads. -/
def Guards (position : Nat) (name : Name) (container : Address) (ledger : Ledger) : Prop :=
  ledger.heap.Shields (ledger.Elsewhere position name) container

variable {ledger : Ledger} {licence : Licence} {position : Nat} {name : Name} {container : Address}

/-- A step on which no container becomes a root or gets into a slot. -/
theorem Guards.remains {before after : Ledger} (guards : before.Guards position name container)
    (remains : before.heap.Remains after.heap)
    (kept : ∀ {root}, root ∈ after.kept → root ∈ before.kept ∨ ¬ before.heap.IsContainer root)
    (bound : ∀ {position' name' root}, after.scopes.get? position' name' = some root →
      before.scopes.get? position' name' = some root) :
    after.Guards position name container := by
  apply Heap.Shields.remains guards remains
  rintro root (member | ⟨position', name', different, found⟩)
  · exact (kept member).imp_left Or.inl
  · exact Or.inl (Or.inr ⟨position', name', different, bound found⟩)

theorem Guards.craft (guards : ledger.Guards position name container) {heap : Heap}
    {given made owned : Multiset Address} (crafted : Heap.Crafted ledger.heap given heap made)
    (split : ledger.owned = given + owned) :
    Guards position name container { ledger with heap := heap, owned := made + owned } := by
  let bound := fun root => ∃ position' name', (position' ≠ position ∨ name' ≠ name) ∧
    ledger.scopes.get? position' name' = some root
  have crafting := Heap.Shields.crafting container fun root => root ∈ ledger.results ∨ bound root
  have started : ledger.heap.Shields
      (fun root => root ∈ 0 + (given + owned) ∨ root ∈ ledger.results ∨ bound root) container := by
    apply Heap.Shields.mono guards
    intro root member
    rw [zero_add, ← split, ← or_assoc] at member
    exact member.imp_left Multiset.mem_add.mpr
  have made := crafted crafting started
  apply made.mono
  intro root member
  rw [zero_add, ← or_assoc]
  exact member.imp_left Multiset.mem_add.mp

theorem Guards.withDefault (guards : ledger.Guards position name container)
    (type : StaticType) : (ledger.withDefault type).Guards position name container :=
  guards.craft (Heap.Crafted.newDefault ledger.heap type) (zero_add ledger.owned).symm

/-- Slots of a container are filled with owned values, so nothing new gets into reach. -/
theorem Amends.shields {before after : Ledger} {roots roots' : Address → Prop}
    (amends : before.Amends after) (shields : before.heap.Shields roots container)
    (rooted : ∀ {root}, root ∈ before.owned → roots root)
    (kept : ∀ {root}, roots' root → roots root) : after.heap.Shields roots' container := by
  cases amends with
  | @intro address object payload added removed owned shared found shape filled exchanged given =>
      have entered := Heap.Remains.enterSlots before.heap added
      have left := Heap.Remains.leaveSlots
        ((before.heap.enterSlots added).setPayload address payload) removed
      have same : (before.heap.enterSlots added).payload? address = some object.payload := by
        rw [Heap.payload?_enterSlots, Heap.payload?_of_get? found]
      obtain ⟨current, alive, payloads⟩ := Heap.payload?_eq_some_iff.mp same
      rw [← payloads] at shape
      have gained : ∀ {holder child},
          (((before.heap.enterSlots added).setPayload address payload).leaveSlots removed).Holds
            holder child → before.heap.Holds holder child ∨ child ∈ added := by
        intro holder child holds
        rcases Heap.holds_setPayload alive (left.holds holds) with ⟨rfl, member⟩ | old
        · have either : child ∈ (added : Multiset Address) + object.payload.children := by
            rw [← exchanged]
            exact Multiset.mem_add.mpr (Or.inr member)
          rcases Multiset.mem_add.mp either with new | stored
          · exact Or.inr new
          · exact Or.inl ⟨object.payload, Heap.payload?_of_get? found, stored⟩
        · exact Or.inl (entered.holds old)
      refine Heap.Shields.gain shields ?_ ?_ gained ?_ fun member => Or.inl (kept member)
      · have sized := left.size
        rw [Heap.setPayload, Heap.size_modify] at sized
        exact entered.size.trans sized
      · intro inside
        have shaped := left.isContainer inside
        rw [Heap.isContainer_setPayload_iff alive shape filled] at shaped
        exact entered.isContainer shaped
      · intro child member
        exact rooted (by simp [given, member])

theorem Guards.amends {before after : Ledger} (amends : before.Amends after)
    (guards : before.Guards position name container) :
    after.Guards position name container := by
  refine amends.shields guards ?_ ?_
  · intro root member
    exact Or.inl (Multiset.mem_add.mpr (Or.inl member))
  · cases amends with
    | intro shared found shape kept exchanged given =>
        rintro root (member | bound)
        · refine Or.inl ?_
          simp only [Ledger.kept, given, Multiset.mem_add] at member ⊢
          tauto
        · exact Or.inr bound

theorem Guards.step (never : ¬ licence.lends) :
    Lasting licence fun ledger => ledger.Orderly ∧ ledger.Guards position name container := by
  rintro before after step ⟨orderly, guards⟩
  refine ⟨Orderly.step step orderly, ?_⟩
  cases step with
  | craft makes split => exact guards.craft makes.crafted split
  | cache value =>
      have made := guards.craft (Heap.Crafted.newScalar before.heap value) (zero_add _).symm
      refine made.remains (Heap.Remains.retain _ _) ?_ fun found => found
      intro root member
      simp only [kept, Multiset.cons_add, Multiset.singleton_add] at member ⊢
      exact Or.inl member
  | @duplicate address scalar =>
      refine guards.remains (Heap.Remains.retain _ _) ?_ fun found => found
      intro root member
      rw [kept, Multiset.cons_add, Multiset.mem_cons] at member
      rcases member with rfl | member
      · rcases scalar with ⟨value, found⟩ | literal
        · exact Or.inr (Heap.not_isContainer_of_scalar? found)
        · exact Or.inr (orderly.separated.literals root literal).2
      · exact Or.inl member
  | share shown =>
      exact guards.remains (Heap.Remains.retain _ _) Or.inl fun found => found
  | @lower address owned given =>
      refine guards.remains (Heap.Remains.refl _) ?_ fun found => found
      intro root member
      simp only [kept, given, Multiset.mem_add, Multiset.mem_cons] at member ⊢
      tauto
  | giveBack given =>
      exact guards.remains (Heap.Remains.release _ _) Or.inl fun found => found
  | @bind hand lent position' name' value previous? inside previous given allowed =>
      cases lent with
      | true => exact absurd (allowed rfl) never
      | false =>
          have remains := (Heap.Remains.enterSlot before.heap value).trans
            (Heap.Remains.leaveSlots _ previous?.toList)
          apply Heap.Shields.remains guards remains
          rintro root (member | ⟨other, otherName, different, found⟩)
          · refine Or.inl (Or.inl ?_)
            simp only [kept, given, Hand.carry_false, Hand.own, Hand.shareAll, Multiset.cons_add,
              Multiset.mem_cons] at member ⊢
            exact Or.inr member
          · rw [Scopes.get?_put position' name' value inside] at found
            split at found
            · cases found
              refine Or.inl (Or.inl ?_)
              simp [kept, given, Hand.own]
            · exact Or.inl (Or.inr ⟨other, otherName, different, found⟩)
  | push => exact guards.remains (Heap.Remains.refl _) Or.inl Scopes.get?_of_push
  | pop last =>
      exact guards.remains (Heap.Remains.leaveSlots _ _) Or.inl (Scopes.get?_of_dropFrame last)
  | skip depth =>
      refine guards.remains (Heap.Remains.refl _) Or.inl ?_
      intro position' name' root found
      rwa [Scopes.get?_skipFrom] at found
  | amend shared found refills given =>
      exact guards.amends (amends_of_refills shared found refills given)
  | extend shared payload absent given =>
      exact (guards.withDefault _).amends (amends_of_extends shared payload given)
  | @keep value owned given =>
      refine guards.remains (Heap.Remains.setPinned _ _ _) ?_ fun found => found
      intro root member
      simp only [kept, given, Multiset.mem_add, Multiset.mem_cons] at member ⊢
      tauto
  | @take value results given =>
      refine guards.remains (Heap.Remains.setPinned _ _ _) ?_ fun found => found
      intro root member
      simp only [kept, given, Multiset.mem_add, Multiset.mem_cons] at member ⊢
      tauto
  | @handBack arguments value owned given within =>
      have remains := (Heap.Remains.retain before.heap value).trans
        (Heap.Remains.releaseAll _ arguments)
      apply (Heap.Shields.widen guards).remains remains
      rintro root (member | bound)
      · rw [kept, Multiset.cons_add, Multiset.mem_cons] at member
        rcases member with rfl | member
        · obtain ⟨argument, passed, reaches⟩ := within.reaches
          refine Or.inl ⟨argument, Or.inl ?_, reaches⟩
          simp [kept, given, Multiset.mem_coe.mp passed]
        · refine Or.inl ⟨root, Or.inl ?_, .root (Multiset.mem_singleton_self root)⟩
          simp only [kept, given, Multiset.mem_add] at member ⊢
          tauto
      · exact Or.inl ⟨root, Or.inr bound, .root (Multiset.mem_singleton_self root)⟩

/-! ## What is guarded -/

theorem Exclusive.count_bound (exclusive : ledger.Exclusive) {address : Address}
    (shape : ledger.heap.IsContainer address) :
    ledger.heap.stored.count address + ledger.scopes.bound.count address ≤ 1 := by
  rw [← Multiset.count_add]
  exact exclusive.unshared address shape

/-- A binding guards its object. -/
theorem Exclusive.guards (exclusive : ledger.Exclusive)
    (found : ledger.scopes.get? position name = some container) :
    ledger.Guards position name container := by
  have bound := Scopes.mem_bound_of_get? found
  have separated := exclusive.orderly.separated.heap
  refine ⟨separated.lt_size (Multiset.mem_add.mpr (Or.inr (mem_lent_of_bound bound))), ?_⟩
  intro shape root elsewhere reaches
  have once := exclusive.count_bound shape
  have here := Multiset.count_pos.mpr bound
  cases reaches with
  | root same =>
      cases Multiset.mem_singleton.mp same
      rcases elsewhere with member | ⟨position', name', different, again⟩
      · have unlent := (separated.alone member shape).2.2
        exact Multiset.count_eq_zero.mp unlent (mem_lent_of_bound bound)
      · have twice := Scopes.two_le_count_bound exclusive.orderly.balanced.distinct found again
          different
        omega
  | slot _ holds =>
      have stored := Multiset.count_pos.mpr (Heap.mem_stored_iff_holds.mpr ⟨_, holds⟩)
      omega

/-- A guarded container guards what is in its slots. -/
theorem Guards.child (guards : ledger.Guards position name container)
    (exclusive : ledger.Exclusive) {child : Address} (holds : ledger.heap.Holds container child) :
    ledger.Guards position name child := by
  have separated := exclusive.orderly.separated.heap
  have stored := Multiset.count_pos.mpr (Heap.mem_stored_iff_holds.mpr ⟨_, holds⟩)
  constructor
  · obtain ⟨owner, rank, certified⟩ := separated
    exact certified.child_lt_size holds
  · intro shape root elsewhere reaches
    have once := exclusive.count_bound shape
    cases reaches with
    | root same =>
        cases Multiset.mem_singleton.mp same
        rcases elsewhere with member | ⟨position', name', _, bound⟩
        · have unstored := (separated.alone member shape).1
          omega
        · have here := Multiset.count_pos.mpr (Scopes.mem_bound_of_get? bound)
          omega
    | @slot holder _ reaches held =>
        by_cases same : holder = container
        · subst same
          exact guards.apart holds.isContainer root elsewhere reaches
        · have twice := Heap.two_le_count_stored held holds same
          omega

end Ledger

end ScriptEngine
