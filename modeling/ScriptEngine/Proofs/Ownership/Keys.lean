import Mathlib.Data.List.Zip
import ScriptEngine.Proofs.Ownership.Likeness

/-!
# Keys of dicts

In a keyed heap no two keys of a dict are equal.  A heap keeps the keys of an
earlier one if dicts that live on have the keys that they had, in the same order
and with the same contents, and perhaps more after those.
-/

namespace ScriptEngine

/-! ## Equality in either direction -/

theorem Quantity.compare_eq_comm (left right : Quantity) :
    (left.compare right == some .eq) = (right.compare left == some .eq) := by
  cases left with
  | nan => cases right <;> rfl
  | below => cases right <;> rfl
  | above => cases right <;> rfl
  | units count =>
      cases right with
      | nan => rfl
      | below => rfl
      | above => rfl
      | units other =>
          rw [Bool.eq_iff_iff, beq_iff_eq, beq_iff_eq]
          simp only [Quantity.compare, Option.some.injEq, compare_eq_iff_eq]
          exact eq_comm

theorem Scalar.equals_comm (left right : Scalar) : left.equals right = right.equals left := by
  cases left <;> cases right <;>
    first
    | exact Quantity.compare_eq_comm _ _
    | simp only [Scalar.equals, Bool.beq_comm]

namespace Heap

theorem agree_comm {equal : Address → Address → Bool}
    (symmetric : ∀ left right, equal left right = equal right left) (left right : Option Payload) :
    agree equal left right = agree equal right left := by
  have zipped : ∀ {α : Type} (test : α × α → Bool), (∀ pair, test pair = test pair.swap) →
      ∀ first second : List α, (first.zip second).all test = (second.zip first).all test := by
    intro α test swapped first second
    rw [← List.zip_swap, List.all_map]
    congr 1
    funext pair
    exact (swapped pair).symm
  cases left with
  | none => cases right with
    | none => rfl
    | some payload => cases payload <;> rfl
  | some payload =>
      cases right with
      | none => cases payload <;> rfl
      | some other =>
          cases payload with
          | scalar value =>
              cases other with
              | scalar value' => exact value.equals_comm value'
              | vector elements => rfl
              | dict entries => rfl
          | vector elements =>
              cases other with
              | scalar value => rfl
              | dict entries => rfl
              | vector others =>
                  simp only [agree]
                  rw [Bool.beq_comm, zipped _ fun pair => symmetric pair.1 pair.2]
          | dict entries =>
              cases other with
              | scalar value => rfl
              | vector elements => rfl
              | dict others =>
                  simp only [agree]
                  rw [Bool.beq_comm, zipped]
                  intro pair
                  rw [symmetric pair.1.1, symmetric pair.1.2]
                  rfl

theorem equalWithin_comm (heap : Heap) (depth : Nat) (left right : Address) :
    heap.equalWithin depth left right = heap.equalWithin depth right left := by
  induction depth generalizing left right with
  | zero => exact Bool.beq_comm
  | succ depth induction => rw [equalWithin_succ, equalWithin_succ, agree_comm induction, Bool.beq_comm]

theorem equals_comm (heap : Heap) (left right : Address) :
    heap.equals left right = heap.equals right left :=
  equalWithin_comm heap _ left right

/-! ## Keyed heaps -/

def keys (heap : Heap) (dict : Address) : List Address :=
  (heap.entries dict).map Prod.fst

/-- No two keys of a dict are equal. -/
def Keyed (heap : Heap) : Prop :=
  ∀ dict, (heap.keys dict).Pairwise fun first second => heap.equals first second = false

/-- Dicts that live on have the keys they had, with the same contents, and no new
keys but at the end; and what is gone does not come back. -/
structure KeepsKeys (before after : Heap) : Prop where
  size : before.cells.size ≤ after.cells.size
  gone : ∀ {address}, address < before.cells.size → before.payload? address = none →
    after.payload? address = none
  order : ∀ {dict entries payload}, before.payload? dict = some (.dict entries) →
    after.payload? dict = some payload →
      ∃ later, payload = .dict later ∧ entries.map Prod.fst <+: later.map Prod.fst
  contents : ∀ {dict key}, key ∈ before.keys dict → after.payload? dict ≠ none →
    after.tree key = before.tree key

variable {heap before middle after : Heap} {dict key : Address}
variable {slots handles slots' handles' : Multiset Address}

theorem keys_of_payload? {entries : List (Address × Address)}
    (found : heap.payload? dict = some (.dict entries)) :
    heap.keys dict = entries.map Prod.fst := by
  rw [keys, Heap.entries, found]

theorem keys_congr (same : after.payload? dict = before.payload? dict) :
    after.keys dict = before.keys dict := by
  rw [keys, keys, entries, entries, same]

theorem exists_entries_of_mem_keys (member : key ∈ heap.keys dict) :
    ∃ entries, heap.payload? dict = some (.dict entries) ∧ key ∈ entries.map Prod.fst := by
  unfold keys entries at member
  split at member
  · rename_i entries found
    exact ⟨entries, found, member⟩
  · simp at member

theorem mem_children_of_mem_keys {entries : List (Address × Address)}
    (member : key ∈ entries.map Prod.fst) : key ∈ (Payload.dict entries).children := by
  obtain ⟨entry, inside, rfl⟩ := List.mem_map.mp member
  exact List.mem_flatMap.mpr ⟨entry, inside, by simp⟩

theorem holds_of_mem_keys (member : key ∈ heap.keys dict) : heap.Holds dict key := by
  obtain ⟨entries, found, inside⟩ := exists_entries_of_mem_keys member
  exact ⟨_, found, mem_children_of_mem_keys inside⟩

/-- A key that is there leads to its entry and is given up. -/
theorem locate_of_present {entries : List (Address × Address)} {position : Nat}
    (found : heap.payload? dict = some (.dict entries))
    (present : heap.findEntry? entries key = some position) (access : Access) :
    heap.locate dict key access = (.ok (.entry dict position), (heap.release key).retain dict) := by
  simp only [locate, spot, found, present]

namespace KeepsKeys

theorem refl (heap : Heap) : KeepsKeys heap heap := by
  constructor
  · exact le_rfl
  · exact fun _ absent => absent
  · intro dict entries payload found found'
    rw [found, Option.some.injEq] at found'
    exact ⟨entries, found'.symm, List.prefix_rfl⟩
  · exact fun _ _ => rfl

/-- What is alive later is alive in between. -/
theorem alive_between (first : KeepsKeys before middle) (second : KeepsKeys middle after)
    {address : Address} (old : address < before.cells.size)
    (alive : after.payload? address ≠ none) : middle.payload? address ≠ none :=
  fun absent => alive (second.gone (old.trans_le first.size) absent)

theorem trans (first : KeepsKeys before middle) (second : KeepsKeys middle after) :
    KeepsKeys before after := by
  constructor
  · exact first.size.trans second.size
  · intro address old absent
    exact second.gone (old.trans_le first.size) (first.gone old absent)
  · intro dict entries payload found found'
    have alive := first.alive_between second (lt_size_of_payload? found) (by simp [found'])
    obtain ⟨content, between⟩ := Option.ne_none_iff_exists'.mp alive
    obtain ⟨later, rfl, grown⟩ := first.order found between
    obtain ⟨last, rfl, grown'⟩ := second.order between found'
    exact ⟨last, rfl, grown.trans grown'⟩
  · intro dict key member alive
    obtain ⟨entries, found, inside⟩ := exists_entries_of_mem_keys member
    have alive' := first.alive_between second (lt_size_of_payload? found) alive
    obtain ⟨content, between⟩ := Option.ne_none_iff_exists'.mp alive'
    obtain ⟨later, rfl, grown⟩ := first.order found between
    have member' : key ∈ middle.keys dict := by
      rw [keys_of_payload? between]
      exact grown.subset inside
    rw [second.contents member' alive, first.contents member alive']

end KeepsKeys

/-! ## Where nothing is assigned -/

/-- Every object has its counts, and none holds itself. -/
structure Sound (heap : Heap) (slots handles : Multiset Address) : Prop where
  balanced : heap.Balanced slots handles
  acyclic : heap.Acyclic

theorem Acyclic.remains (acyclic : before.Acyclic) (remains : Remains before after) :
    after.Acyclic := by
  intro address cycle
  have fewer : after.Holds ≤ before.Holds := fun _ _ holds => remains.holds holds
  exact acyclic address (Relation.TransGen.mono fewer _ _ cycle)

/-- A new object holds only older ones. -/
theorem Acyclic.allocate (acyclic : heap.Acyclic) (type : StaticType) {payload : Payload}
    (old : ∀ child ∈ payload.children, child < heap.cells.size)
    (known : ∀ child ∈ heap.stored, child < heap.cells.size) :
    (heap.allocate type payload).2.Acyclic := by
  have falls : ∀ {holder child}, (heap.allocate type payload).2.Holds holder child →
      child < heap.cells.size := by
    intro holder child holds
    rcases holds_allocate holds with ⟨_, member⟩ | holds
    · exact old child member
    · exact known child (mem_stored_iff_holds.mpr ⟨holder, holds⟩)
  have below : ∀ {first last}, first < heap.cells.size →
      Relation.TransGen (heap.allocate type payload).2.Holds first last →
        Relation.TransGen heap.Holds first last := by
    intro first last small path
    have older : ∀ {holder child}, holder < heap.cells.size →
        (heap.allocate type payload).2.Holds holder child → heap.Holds holder child := by
      intro holder child small holds
      exact (holds_allocate holds).resolve_left fun new => Nat.ne_of_lt small new.1
    induction path with
    | single holds => exact .single (older small holds)
    | tail path holds induction =>
        refine .tail induction (older ?_ holds)
        obtain ⟨_, _, held⟩ := Relation.TransGen.tail'_iff.mp path
        exact falls held
  intro address cycle
  obtain ⟨_, _, held⟩ := Relation.TransGen.tail'_iff.mp cycle
  exact acyclic address (below (falls held) cycle)

namespace Sound

theorem grounded (sound : heap.Sound slots handles) : heap.Grounded :=
  sound.acyclic.grounded

theorem crafting (slots handles : Multiset Address) :
    Crafting fun heap pending owned => heap.Sound (pending + slots) (owned + handles) where
  enter sound := ⟨(Balanced.crafting slots handles).enter sound.balanced,
    sound.acyclic.remains (Remains.enterSlot _ _)⟩
  leave sound := ⟨(Balanced.crafting slots handles).leave sound.balanced,
    sound.acyclic.remains (Remains.leaveSlot _ _)⟩
  release sound := ⟨(Balanced.crafting slots handles).release sound.balanced,
    sound.acyclic.remains (Remains.release _ _)⟩
  allocate {heap pending owned} payload type sound := by
    refine ⟨(Balanced.crafting slots handles).allocate payload type sound.balanced, ?_⟩
    apply sound.acyclic.allocate
    · intro child member
      apply sound.balanced.lt_size
      simp [member]
    · intro child member
      apply sound.balanced.lt_size
      simp [member]

theorem crafted {given made : Multiset Address} (sound : heap.Sound slots (given + handles))
    (crafted : Crafted heap given after made) : after.Sound slots (made + handles) := by
  have started : heap.Sound (0 + slots) (given + handles + 0) := by simpa using sound
  simpa using crafted (crafting slots 0) started

end Sound

namespace Survives

variable (survives : Survives before after) (sound : before.Sound slots handles)
  (sound' : after.Sound slots' handles')
include survives sound sound'

theorem alike_key (member : key ∈ before.keys dict) (alive : after.payload? dict ≠ none) :
    Alike before after key := by
  obtain ⟨entries, found, inside⟩ := exists_entries_of_mem_keys member
  have alike := survives.alike sound.balanced sound'.balanced (lt_size_of_payload? found) alive
  exact alike.child (holds_of_mem_keys member)

theorem keepsKeys : KeepsKeys before after := by
  constructor
  · exact survives.size
  · exact survives.gone
  · intro dict entries payload found found'
    have same := survives.payload (lt_size_of_payload? found) found'
    rw [found, Option.some.injEq] at same
    exact ⟨entries, same.symm, List.prefix_rfl⟩
  · intro dict key member alive
    exact (survives.alike_key sound sound' member alive).tree sound.grounded sound'.grounded

/-- Only new dicts have to be looked at. -/
theorem keyed (keyed : before.Keyed)
    (fresh : ∀ dict, before.cells.size ≤ dict →
      (after.keys dict).Pairwise fun first second => after.equals first second = false) :
    after.Keyed := by
  intro dict
  rcases Nat.lt_or_ge dict before.cells.size with old | new
  · cases present : after.payload? dict with
    | none => simp [keys, entries, present]
    | some payload =>
        have alive : after.payload? dict ≠ none := by simp [present]
        rw [keys_congr (survives.payload?_eq old alive)]
        apply (keyed dict).imp_of_mem
        intro first second member member' different
        have alike := survives.alike_key sound sound' member alive
        have alike' := survives.alike_key sound sound' member' alive
        rwa [alike.equals alike']
  · exact fresh dict new

end Survives

end Heap

end ScriptEngine
