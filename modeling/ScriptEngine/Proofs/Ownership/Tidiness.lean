import ScriptEngine.Proofs.Ownership.Separation

/-!
# Tidy ledgers

Only results that calls keep are pinned, every object belongs to the zone in
use, and no literal is cached twice.  Objects are never renumbered: a literal
that is cached later than a given moment is younger than all objects of that
moment.
-/

namespace ScriptEngine

namespace Heap

structure Tidy (heap : Heap) (results : Multiset Address) : Prop where
  pinned : ∀ {address object}, heap.get? address = some object → object.pinned = true →
    address ∈ results
  zone : ∀ {address object}, heap.get? address = some object → object.zone = heap.zone

namespace Tidy

variable {heap : Heap} {results : Multiset Address}

theorem modify (tidy : heap.Tidy results) {target : Address} {change : Object → Object}
    (pins : ∀ object, (change object).pinned = object.pinned)
    (zones : ∀ object, (change object).zone = object.zone) :
    (heap.modify target change).Tidy results := by
  constructor
  · intro address object found held
    obtain ⟨before, old, rfl⟩ := get?_of_get?_modify found
    split at held
    · rw [pins] at held
      exact tidy.pinned old held
    · exact tidy.pinned old held
  · intro address object found
    obtain ⟨before, old, rfl⟩ := get?_of_get?_modify found
    split
    · rw [zones]
      exact tidy.zone old
    · exact tidy.zone old

theorem retain (tidy : heap.Tidy results) (address : Address) :
    (heap.retain address).Tidy results :=
  tidy.modify (fun _ => rfl) fun _ => rfl

theorem setPayload (tidy : heap.Tidy results) (address : Address) (payload : Payload) :
    (heap.setPayload address payload).Tidy results :=
  tidy.modify (fun _ => rfl) fun _ => rfl

theorem enterSlot (tidy : heap.Tidy results) (address : Address) :
    (heap.enterSlot address).Tidy results :=
  tidy.modify (fun _ => rfl) fun _ => rfl

theorem enterSlots (tidy : heap.Tidy results) (addresses : List Address) :
    (heap.enterSlots addresses).Tidy results := by
  induction addresses generalizing heap with
  | nil => exact tidy
  | cons address others induction => exact induction (tidy.enterSlot address)

theorem leaveSlot (tidy : heap.Tidy results) (address : Address) :
    (heap.leaveSlot address).Tidy results := by
  simp only [Heap.leaveSlot]
  split
  · have marked : ({ heap with underflowed := true } : Heap).Tidy results :=
      ⟨tidy.pinned, tidy.zone⟩
    exact marked.modify (fun _ => rfl) fun _ => rfl
  · exact tidy.modify (fun _ => rfl) fun _ => rfl

theorem leaveSlots (tidy : heap.Tidy results) (addresses : List Address) :
    (heap.leaveSlots addresses).Tidy results := by
  induction addresses generalizing heap with
  | nil => exact tidy
  | cons address others induction => exact induction (tidy.leaveSlot address)

theorem erase (tidy : heap.Tidy results) (address : Address) :
    (heap.erase address).Tidy results := by
  constructor
  · intro other object found held
    rw [get?_erase] at found
    split at found
    · simp at found
    · exact tidy.pinned found held
  · intro other object found
    rw [get?_erase] at found
    split at found
    · simp at found
    · exact tidy.zone found

theorem releaseAll (tidy : heap.Tidy results) (addresses : List Address) :
    (heap.releaseAll addresses).Tidy results :=
  releaseAll_induction (motive := fun heap => heap.Tidy results)
    (fun _ tidy => tidy.modify (fun _ => rfl) fun _ => rfl) (fun _ tidy => tidy.erase _)
    (fun address tidy => tidy.leaveSlot address) tidy addresses

theorem allocate (tidy : heap.Tidy results) (type : StaticType) (payload : Payload) :
    (heap.allocate type payload).2.Tidy results := by
  constructor
  · intro address object found held
    rw [get?_allocate] at found
    split at found
    · cases found
      simp at held
    · exact tidy.pinned found held
  · intro address object found
    rw [get?_allocate] at found
    split at found
    · cases found
      rfl
    · exact tidy.zone found

theorem pin (tidy : heap.Tidy results) (value : Address) :
    (heap.setPinned value true).Tidy (value ::ₘ results) := by
  constructor
  · intro address object found held
    obtain ⟨before, old, rfl⟩ := get?_of_get?_modify found
    split at held
    · rename_i same
      exact Multiset.mem_cons.mpr (Or.inl same.symm)
    · exact Multiset.mem_cons_of_mem (tidy.pinned old held)
  · intro address object found
    obtain ⟨before, old, rfl⟩ := get?_of_get?_modify found
    have same := tidy.zone old
    split
    · exact same
    · exact same

theorem unpin {value : Address} (tidy : heap.Tidy (value ::ₘ results)) :
    (heap.setPinned value false).Tidy results := by
  constructor
  · intro address object found held
    obtain ⟨before, old, rfl⟩ := get?_of_get?_modify found
    split at held
    · simp at held
    · rename_i different
      have member := tidy.pinned old held
      exact (Multiset.mem_cons.mp member).resolve_left fun same => different same.symm
  · intro address object found
    obtain ⟨before, old, rfl⟩ := get?_of_get?_modify found
    have same := tidy.zone old
    split
    · exact same
    · exact same

theorem crafting (results : Multiset Address) : Crafting fun heap _ _ => heap.Tidy results where
  enter tidy := tidy.enterSlot _
  leave tidy := tidy.leaveSlot _
  release tidy := tidy.releaseAll _
  allocate payload type tidy := tidy.allocate type payload

end Tidy

theorem Crafting.sized (size : Nat) : Crafting fun heap _ _ => size ≤ heap.cells.size where
  enter sized := sized.trans (Remains.enterSlot _ _).size
  leave sized := sized.trans (Remains.leaveSlot _ _).size
  release sized := sized.trans (Remains.release _ _).size
  allocate payload type sized := by
    rw [size_allocate]
    exact sized.trans (Nat.le_succ _)

end Heap

namespace Ledger

variable {licence : Licence}

structure Tidy (ledger : Ledger) : Prop where
  heap : ledger.heap.Tidy ledger.results
  literals : ledger.literals.Nodup

theorem Tidy.craft {ledger : Ledger} (tidy : ledger.Tidy) {heap : Heap}
    {given made owned : Multiset Address} (crafted : Heap.Crafted ledger.heap given heap made) :
    Tidy { ledger with heap := heap, owned := made + owned } :=
  ⟨@crafted _ (Heap.Tidy.crafting ledger.results) 0 0 tidy.heap, tidy.literals⟩

theorem Tidy.withDefault {ledger : Ledger} (tidy : ledger.Tidy) (type : StaticType) :
    (ledger.withDefault type).Tidy :=
  tidy.craft (Heap.Crafted.newDefault ledger.heap type)

theorem Tidy.amends {before after : Ledger} (amends : before.Amends after)
    (tidy : before.Tidy) : after.Tidy := by
  cases amends with
  | intro shared found container kept exchanged given =>
      exact ⟨((tidy.heap.enterSlots _).setPayload _ _).leaveSlots _, tidy.literals⟩

/-- A new literal is not cached yet, since it is younger than all that are. -/
theorem Tidy.step {before after : Ledger} (step : Step licence before after)
    (separated : before.Separated) (tidy : before.Tidy) : after.Tidy := by
  obtain ⟨tidy, distinct⟩ := tidy
  cases step with
  | craft makes split => exact Tidy.craft ⟨tidy, distinct⟩ makes.crafted
  | cache value =>
      refine ⟨(tidy.allocate _ _).retain _, ?_⟩
      rw [Multiset.nodup_cons]
      refine ⟨?_, distinct⟩
      intro member
      exact Nat.lt_irrefl _ (separated.literals _ member).1
  | duplicate scalar => exact ⟨tidy.retain _, distinct⟩
  | share shown => exact ⟨tidy.retain _, distinct⟩
  | lower given => exact ⟨tidy, distinct⟩
  | giveBack given => exact ⟨tidy.releaseAll _, distinct⟩
  | bind inside previous given allowed =>
      exact ⟨(tidy.enterSlot _).leaveSlots _, distinct⟩
  | push => exact ⟨tidy, distinct⟩
  | pop last => exact ⟨tidy.leaveSlots _, distinct⟩
  | skip depth => exact ⟨tidy, distinct⟩
  | amend shared found refills given =>
      exact Tidy.amends (amends_of_refills shared found refills given) ⟨tidy, distinct⟩
  | extend shared payload absent given =>
      exact (Tidy.withDefault ⟨tidy, distinct⟩ _).amends (amends_of_extends shared payload given)
  | keep given => exact ⟨tidy.pin _, distinct⟩
  | take given =>
      rw [given] at tidy
      exact ⟨tidy.unpin, distinct⟩
  | handBack given within => exact ⟨(tidy.retain _).releaseAll _, distinct⟩

/-- All that is known of the ledgers of runs. -/
structure Orderly (ledger : Ledger) : Prop where
  balanced : ledger.Balanced
  separated : ledger.Separated
  tidy : ledger.Tidy

theorem Orderly.step : Lasting licence Orderly := by
  intro before after step orderly
  obtain ⟨balanced, separated⟩ := Separated.step step ⟨orderly.balanced, orderly.separated⟩
  exact ⟨balanced, separated, Tidy.step step orderly.separated orderly.tidy⟩

/-- Later than a moment at which the heap had a size and literals were
cached. -/
structure Since (size : Nat) (literals : Multiset Address) (ledger : Ledger) : Prop where
  sized : size ≤ ledger.heap.cells.size
  kept : ∀ address ∈ literals, address ∈ ledger.literals
  younger : ∀ address ∈ ledger.literals, address ∈ literals ∨ size ≤ address

theorem Since.grow {size : Nat} {literals : Multiset Address} {before after : Ledger}
    (since : Since size literals before) (grown : before.heap.cells.size ≤ after.heap.cells.size)
    (same : after.literals = before.literals) : Since size literals after := by
  obtain ⟨sized, kept, younger⟩ := since
  refine ⟨sized.trans grown, ?_, ?_⟩
  · rwa [same]
  · rwa [same]

theorem Since.remains {size : Nat} {literals : Multiset Address} {before after : Ledger}
    (since : Since size literals before) (remains : before.heap.Remains after.heap)
    (same : after.literals = before.literals) : Since size literals after :=
  since.grow remains.size same

theorem Since.craft {size : Nat} {literals : Multiset Address} {ledger : Ledger}
    (since : Since size literals ledger) {heap : Heap} {given made owned : Multiset Address}
    (crafted : Heap.Crafted ledger.heap given heap made) :
    Since size literals { ledger with heap := heap, owned := made + owned } := by
  have grown := @crafted _ (Heap.Crafting.sized ledger.heap.cells.size) 0 0 le_rfl
  exact since.grow grown rfl

theorem Since.withDefault {size : Nat} {literals : Multiset Address} {ledger : Ledger}
    (since : Since size literals ledger) (type : StaticType) :
    Since size literals (ledger.withDefault type) :=
  since.craft (Heap.Crafted.newDefault ledger.heap type)

theorem Since.amends {size : Nat} {literals : Multiset Address} {before after : Ledger}
    (amends : before.Amends after) (since : Since size literals before) :
    Since size literals after := by
  cases amends with
  | @intro address object payload added removed owned shared found container kept exchanged
      given =>
      have left := Heap.Remains.leaveSlots
        ((before.heap.enterSlots added).setPayload address payload) removed
      have grown := (Heap.Remains.enterSlots before.heap added).size
      rw [← Heap.size_modify (before.heap.enterSlots added) address
        fun object => { object with payload := payload }] at grown
      exact since.grow (grown.trans left.size) rfl

theorem Since.step (size : Nat) (literals : Multiset Address) :
    Lasting licence (Since size literals) := by
  intro before after step since
  cases step with
  | craft makes split => exact since.craft makes.crafted
  | cache value =>
      refine ⟨?_, ?_, ?_⟩
      · have grown := since.sized
        simp only [Heap.newScalar, Heap.retain, Heap.size_modify, Heap.size_allocate]
        exact Nat.le_succ_of_le grown
      · intro address member
        exact Multiset.mem_cons_of_mem (since.kept address member)
      · intro address member
        rcases Multiset.mem_cons.mp member with rfl | member
        · exact Or.inr since.sized
        · exact since.younger address member
  | duplicate scalar => exact since.remains (Heap.Remains.retain _ _) rfl
  | share shown => exact since.remains (Heap.Remains.retain _ _) rfl
  | lower given => exact since.remains (Heap.Remains.refl _) rfl
  | giveBack given => exact since.remains (Heap.Remains.release _ _) rfl
  | bind inside previous given allowed =>
      exact since.remains ((Heap.Remains.enterSlot _ _).trans (Heap.Remains.leaveSlots _ _)) rfl
  | push => exact since.remains (Heap.Remains.refl _) rfl
  | pop last => exact since.remains (Heap.Remains.leaveSlots _ _) rfl
  | skip depth => exact since.remains (Heap.Remains.refl _) rfl
  | amend shared found refills given =>
      exact since.amends (amends_of_refills shared found refills given)
  | extend shared payload absent given =>
      exact (since.withDefault _).amends (amends_of_extends shared payload given)
  | keep given => exact since.remains (Heap.Remains.setPinned _ _ _) rfl
  | take given => exact since.remains (Heap.Remains.setPinned _ _ _) rfl
  | handBack given within =>
      exact since.remains ((Heap.Remains.retain _ _).trans (Heap.Remains.releaseAll _ _)) rfl

end Ledger

end ScriptEngine
