import ScriptEngine.Proofs.Ownership.Duplicates
import ScriptEngine.Proofs.Ownership.Updates

/-!
# Independence of copies

A host that holds two objects edits inside of one of them: it stores in the slots of
containers that the object leads to, and enters keys in dicts there.  As long as what it
stores and enters has no container in common with the other object, neither has the one
object, and the other one reads as before.
-/

namespace ScriptEngine

/-- The handles that a host has once it has tried to store an object: that on the earlier
occupant, or the one on the object. -/
def Place.returned (value : Address) : Except Cause Address → Multiset Address
  | .ok previous => {previous}
  | .error _ => {value}

/-- The handles of a place that has been found. -/
def Place.owned : Except Cause Place → Multiset Address
  | .ok place => place.handles
  | .error _ => 0

theorem cons_rotate (first second third : Address) (others : Multiset Address) :
    first ::ₘ second ::ₘ third ::ₘ others = second ::ₘ third ::ₘ first ::ₘ others := by
  rw [Multiset.cons_swap first second, Multiset.cons_swap first third]

namespace Heap

/-- No container is reached from both. -/
def Unlinked (heap : Heap) (left right : Address) : Prop :=
  ∀ container, heap.IsContainer container → heap.Reaches {left} container →
    ¬ heap.Reaches {right} container

/-- What a host can do that holds two objects and edits inside of the first.  The handles
are those that it has besides. -/
inductive Edit (one other : Address) : Heap × Multiset Address → Heap × Multiset Address → Prop where
  | craft {heap after : Heap} {given made handles : Multiset Address} :
      Crafted heap given after made → Edit one other (heap, given + handles) (after, made + handles)
  | retain {heap : Heap} {handles : Multiset Address} {address : Address} :
      heap.payload? address ≠ none →
      Edit one other (heap, handles) (heap.retain address, address ::ₘ handles)
  | store {heap after : Heap} {handles : Multiset Address} {place : Place} {scopes scopes' : Scopes}
      {container value : Address} {result : Except Cause Address} :
      place.handles = [container] → heap.Reaches {one} container → heap.Unlinked value other →
      place.store scopes heap value = (result, scopes', after) →
      Edit one other (heap, value ::ₘ handles) (after, Place.returned value result + handles)
  | locate {heap after : Heap} {handles : Multiset Address} {container key : Address}
      {access : Access} {result : Except Cause Place} :
      heap.Reaches {one} container → heap.Unlinked key other →
      heap.locate container key access = (result, after) →
      Edit one other (heap, key ::ₘ handles) (after, Place.owned result + handles)

/-- A host edits inside of the first object as often as it likes. -/
def Edits (one other : Address) : Heap × Multiset Address → Heap × Multiset Address → Prop :=
  Relation.ReflTransGen (Edit one other)

variable {heap origin after : Heap} {one other container key value previous source : Address}
  {counted handles handles' : Multiset Address} {place : Place} {scopes : Scopes}

/-! ## What is reached after a change -/

theorem Stores.holds (stores : Stores heap after scopes container place previous value)
    {holder child : Address} (holds : after.Holds holder child) :
    heap.Holds holder child ∨ child = value := by
  obtain ⟨content, present, member⟩ := holds
  cases Place.leads_of_load stores.loaded with
  | binding same _ =>
      have only := stores.only
      rw [same] at only
      cases only
  | @inside holder' object replaced only alive _ refills point =>
      have found := payload?_of_get? alive
      have stored := Place.store_of_load stores.loaded value
      rw [point scopes _ value ((payload?_enterSlot heap value holder').trans found)] at stored
      obtain rfl := congrArg (·.2.2) (stores.store.symm.trans stored)
      have replaces := @replaces_setPayload heap holder' (replaced value) [value] [previous] object alive
      by_cases same : holder' = holder
      · obtain rfl := same
        cases replaces.written.symm.trans present
        have exchanged : previous ::ₘ ((replaced value).children : Multiset Address) =
            value ::ₘ (object.payload.children : Multiset Address) := by
          simpa using (refills value).exchange.2.2
        have inside : child ∈ value ::ₘ (object.payload.children : Multiset Address) := by
          rw [← exchanged]
          exact Multiset.mem_cons_of_mem (Multiset.mem_coe.mpr member)
        rcases Multiset.mem_cons.mp inside with rfl | old
        · exact Or.inr rfl
        · exact Or.inl ⟨_, found, Multiset.mem_coe.mp old⟩
      · exact Or.inl ⟨content, (replaces.spared same).symm.trans present, member⟩

/-- What is held and survives is alike. -/
theorem Survives.alike_held (survives : Survives heap after) {address : Address}
    (balanced : heap.Balanced counted handles) (balanced' : after.Balanced counted handles')
    (held : address ∈ handles) (held' : address ∈ handles') : Alike heap after address := by
  have alive := balanced'.payload?_ne_none (Multiset.mem_add.mpr (Or.inr held'))
  obtain ⟨payload, found⟩ := Option.ne_none_iff_exists'.mp
    (balanced.payload?_ne_none (Multiset.mem_add.mpr (Or.inr held)))
  exact survives.alike balanced balanced' (lt_size_of_payload? found) alive

/-! ## Steps -/

/-- Two objects are held that have no container in common, and the second is as it was. -/
structure Detached (counted : Multiset Address) (origin : Heap) (one other : Address)
    (heap : Heap) (handles : Multiset Address) : Prop where
  balanced : heap.Balanced counted (one ::ₘ other ::ₘ handles)
  unlinked : heap.Unlinked one other
  alike : Alike origin heap other
  size : origin.cells.size ≤ heap.cells.size

namespace Detached

section

variable (detached : Detached counted origin one other heap handles)
include detached

theorem change (balanced : after.Balanced counted (one ::ₘ other ::ₘ handles'))
    (alike : Alike heap after other) (size : heap.cells.size ≤ after.cells.size)
    (reached : ∀ {address}, after.Reaches {one} address → heap.Reaches {one} address ∨
      heap.cells.size ≤ address ∨ ∃ extra, heap.Unlinked extra other ∧ heap.Reaches {extra} address) :
    Detached counted origin one other after handles' := by
  refine ⟨balanced, ?_, detached.alike.trans alike, detached.size.trans size⟩
  intro address isContainer reaches reaches'
  have before := alike.reaches.mp reaches'
  have isContainer' : heap.IsContainer address := by
    obtain ⟨payload, found, shape⟩ := isContainer
    exact ⟨payload, (alike address before).1.symm.trans found, shape⟩
  rcases reached reaches with old | new | ⟨extra, unlinked, old⟩
  · exact detached.unlinked address isContainer' old before
  · exact absurd isContainer'.lt_size (Nat.not_lt.mpr new)
  · exact unlinked address isContainer' old before

theorem survives (balanced : after.Balanced counted (one ::ₘ other ::ₘ handles'))
    (survives : Survives heap after) : Detached counted origin one other after handles' := by
  have same := survives.alike_held detached.balanced balanced
    (Multiset.mem_cons_self one _) (Multiset.mem_cons_self one _)
  refine detached.change balanced ?_ survives.size fun reaches =>
    Or.inl (same.reaches.mp reaches)
  exact survives.alike_held detached.balanced balanced (by simp) (by simp)

theorem retain {address : Address} (alive : heap.payload? address ≠ none) :
    Detached counted origin one other (heap.retain address) (address ::ₘ handles) := by
  obtain ⟨payload, found⟩ := Option.ne_none_iff_exists'.mp alive
  obtain ⟨object, present, _⟩ := payload?_eq_some_iff.mp found
  have balanced := detached.balanced.retain (detached.balanced.mem_of_get? present)
  rw [cons_rotate] at balanced
  exact detached.survives balanced (Remains.retain heap address).survives

end

theorem store {result : Except Cause Address} {scopes' : Scopes}
    (detached : Detached counted origin one other heap (value ::ₘ handles))
    (only : place.handles = [container]) (reaches : heap.Reaches {one} container)
    (unlinked : heap.Unlinked value other)
    (stored : place.store scopes heap value = (result, scopes', after)) :
    Detached counted origin one other after (Place.returned value result + handles) := by
  cases loaded : place.load scopes heap with
  | error cause =>
      rw [Place.store, loaded] at stored
      cases stored
      rwa [Place.returned, Multiset.singleton_add]
  | ok previous =>
      have ready := detached.balanced
      rw [← cons_rotate] at ready
      obtain ⟨last, stores, settled⟩ := stores_of_load only loaded ready
      cases stores.store.symm.trans stored
      rw [cons_rotate, ← Multiset.singleton_add] at settled
      have holds := Place.holds_of_load loaded (by simp [only] : container ∈ _)
      obtain ⟨payload, payload', found, _, replaces⟩ := stores.replaces
      have alike : Alike heap after other := Alike.of_avoids
        (fun different => ⟨replaces.spared different, replaces.type _⟩)
        (detached.unlinked container holds.isContainer reaches)
      refine detached.change settled alike replaces.cells.ge fun reached => ?_
      rcases Reaches.of_gained stores.holds reached with before | ⟨child, rfl, before⟩
      · exact Or.inl before
      · exact Or.inr (Or.inr ⟨child, unlinked, before⟩)

theorem createEntry {entries : List (Address × Address)}
    (detached : Detached counted origin one other heap (key ::ₘ handles))
    (found : heap.payload? container = some (.dict entries))
    (reaches : heap.Reaches {one} container) (unlinked : heap.Unlinked key other) :
    Detached counted origin one other (heap.createEntry container key entries) handles := by
  have ready := detached.balanced
  rw [← cons_rotate] at ready
  have alive := ready.payload?_ne_none
    (show other ∈ counted + (key ::ₘ one ::ₘ other ::ₘ handles) by simp)
  have alike := @alike_createEntry heap container key other entries _ _ found ready alive
    (detached.unlinked container ⟨_, found, trivial⟩ reaches)
  have size := (@Evolves.createEntry heap container key entries found).size
  refine detached.change (ready.createEntry found) alike size fun reached => ?_
  have gained : ∀ {holder child}, (heap.createEntry container key entries).Holds holder child →
      heap.Holds holder child ∨ (child = key ∨ child = heap.cells.size) :=
    fun held => (holds_createEntry found held).imp_right And.right
  rcases Reaches.of_gained gained reached with before | ⟨entered, rfl | rfl, before⟩
  · exact Or.inl before
  · exact Or.inr (Or.inr ⟨entered, unlinked, before⟩)
  · -- The new value is beyond what there was, and held nothing then.
    have same := before.eq_of_not_isContainer fun beyond => Nat.lt_irrefl _ beyond.lt_size
    exact Or.inr (Or.inl same.ge)

theorem locate {access : Access} {result : Except Cause Place}
    (detached : Detached counted origin one other heap (key ::ₘ handles))
    (reaches : heap.Reaches {one} container) (unlinked : heap.Unlinked key other)
    (located : heap.locate container key access = (result, after)) :
    Detached counted origin one other after (Place.owned result + handles) := by
  have ready := detached.balanced
  rw [← cons_rotate] at ready
  have released : Detached counted origin one other (heap.release key) handles :=
    detached.survives ready.release (Remains.release heap key).survives
  have alive : (heap.release key).payload? container ≠ none := by
    have same := (Remains.release heap key).survives.alike_held detached.balanced released.balanced
      (Multiset.mem_cons_self one _) (Multiset.mem_cons_self one _)
    have ⟨object, found⟩ := released.balanced.alive_of_reaches
      ((same.reaches.mpr reaches).mono (by simp))
    simp [payload?_of_get? found]
  unfold Heap.locate at located
  split at located
  · cases located
    simpa [Place.owned] using released
  · cases located
    exact released.retain alive
  · cases located
    exact released.retain alive
  · rename_i absent
    split at located
    · cases located
      simpa [Place.owned] using released
    · cases located
      have found := (dict_of_absent absent).1
      have created := detached.createEntry found reaches unlinked
      exact created.retain (by rw [payload?_createEntry key found]; exact Option.some_ne_none _)

end Detached

theorem Edit.detached {before after : Heap × Multiset Address} (edit : Edit one other before after)
    (detached : Detached counted origin one other before.1 before.2) :
    Detached counted origin one other after.1 after.2 := by
  cases edit with
  | @craft heap after given made handles crafted =>
      have ready := detached.balanced
      rw [← Multiset.add_cons, ← Multiset.add_cons] at ready
      have made' := ready.crafted crafted
      rw [Multiset.add_cons, Multiset.add_cons] at made'
      exact detached.survives made' crafted.survives
  | retain alive => exact detached.retain alive
  | store only reaches unlinked stored => exact detached.store only reaches unlinked stored
  | locate reaches unlinked located => exact detached.locate reaches unlinked located

theorem Edits.detached {before after : Heap × Multiset Address} (edits : Edits one other before after)
    (detached : Detached counted origin one other before.1 before.2) :
    Detached counted origin one other after.1 after.2 := by
  induction edits with
  | refl => exact detached
  | tail _ edit induction => exact edit.detached induction

theorem Edits.tree_eq {last : Heap} (edits : Edits one other (origin, handles) (last, handles'))
    (balanced : origin.Balanced counted (one ::ₘ other ::ₘ handles))
    (unlinked : origin.Unlinked one other) (ends : origin.EndsWithin origin.cells.size other) :
    last.tree other = origin.tree other :=
  have detached := edits.detached ⟨balanced, unlinked, .refl origin other, le_rfl⟩
  detached.alike.tree_of_ends le_rfl detached.size ends

/-! ## Copies -/

/-- A copy is faithful, and what a host does inside of the copy or of the original does not
show in the other. -/
structure CopiesIndependently (heap : Heap) (source copy : Address) (after : Heap)
    (handles : Multiset Address) : Prop extends CopiesFaithfully heap source copy after where
  original : ∀ {last handles'}, Edits copy source (after, handles) (last, handles') →
    last.tree source = heap.tree source ∧
      ∀ nested, last.render nested source = heap.render nested source
  copied : ∀ {last handles'}, Edits source copy (after, handles) (last, handles') →
    last.tree copy = heap.tree source ∧
      ∀ nested, last.render nested copy = heap.render nested source

theorem SharesNothing.unlinked (apart : heap.SharesNothing one other) : heap.Unlinked one other :=
  fun address _ => apart address

theorem copy_independent (balanced : heap.Balanced counted (source ::ₘ handles))
    (acyclic : heap.AcyclicFrom source) :
    heap.CopiesIndependently source (heap.copy source).1 (heap.copy source).2 handles := by
  have alive := balanced.payload?_ne_none (show source ∈ counted + source ::ₘ handles by simp)
  have faithful := copiesFaithfully balanced alive acyclic
  have alike := balanced.alike_copy alive
  have copied := balanced.copy source
  have grown : heap.cells.size ≤ (heap.copy source).2.cells.size := faithful.size ▸ Nat.le_add_right _ _
  have rendered : ∀ {last : Heap} {address}, last.tree address = heap.tree source →
      last.tree address = heap.tree source ∧
        ∀ nested, last.render nested address = heap.render nested source :=
    fun same => ⟨same, fun nested => congrArg (Tree.render nested) same⟩
  refine ⟨faithful, fun edits => rendered ?_, fun edits => rendered ?_⟩
  · have ends := (alike.endsWithin acyclic.endsWithin).mono grown
    rw [edits.tree_eq copied faithful.apart.unlinked ends]
    exact alike.tree_of_ends le_rfl grown acyclic.endsWithin
  · have ends := (build_depicts (heap.tree source) heap).endsWithin
    rw [Multiset.cons_swap] at copied
    rw [edits.tree_eq copied faithful.apart.symm.unlinked (ends.mono ?_), faithful.tree]
    exact faithful.size ▸ Nat.le_add_left _ _

theorem unlinked_of_scalar {scalar : Scalar} (found : heap.scalar? value = some scalar)
    (other : Address) : heap.Unlinked value other := by
  intro address isContainer reaches _
  have simple := not_isContainer_of_scalar? found
  exact simple (reaches.eq_of_not_isContainer simple ▸ isContainer)

/-- A vector that holds a vector of a NaN twice. -/
def twins : Heap :=
  let heap := ((({} : Heap).newScalar (.float .nan)).2.newVector .float [0]).2.retain 1
  (heap.newVector (.vector .float) [1, 1]).2

theorem twins_balanced : twins.Balanced 0 {2} := by
  have crafting := Balanced.crafting 0 0
  have blank : ({} : Heap).Balanced (0 + 0) (0 + 0) := (Ledger.Balanced.blank none).heap
  have scalar := crafting.newScalar blank (.float .nan)
  have inner := @Crafting.newVector _ _ 0 0 crafting [0] scalar .float
  exact @Crafting.newVector _ _ 0 0 crafting [1, 1] (inner.retain (by decide)) (.vector .float)

/-- The copy is made of five objects and differs from the original, which does not show what
is stored in the copy. -/
theorem copy_independent_twins : ∃ last handles,
    (twins.copy 2).2.occupants 7 = [3, 4, 5, 6, 7] ∧ (twins.copy 2).2.equals 2 7 = false ∧
      Edits 7 2 ((twins.copy 2).2, 0) (last, handles) ∧
        last.payload? 4 = some (.vector [8]) ∧ last.payload? 6 = some (.vector [5]) ∧
          last.tree 2 = twins.tree 2 := by
  have acyclic : twins.Acyclic := acyclic_of_rising (by decide)
  have laws := copy_independent twins_balanced (acyclic.from_root 2)
  have root : (twins.copy 2).1 = 7 := by decide +kernel
  rw [root] at laws
  have last : ((twins.copy 2).2.newScalar (.int 9)).1 = 8 := by decide +kernel
  have crafted := @Edit.craft 7 2 _ _ 0 _ 0 (Crafted.newScalar (twins.copy 2).2 (.int 9))
  rw [last, zero_add, add_zero] at crafted
  have inside : ((twins.copy 2).2.newScalar (.int 9)).2.Reaches {7} 4 :=
    .slot (.root (Multiset.mem_singleton_self 7)) ⟨.vector [4, 6], by decide +kernel, by decide⟩
  have stored : Edit 7 2 (((twins.copy 2).2.newScalar (.int 9)).2, {8}) (_, _) :=
    @Edit.store 7 2 _ _ 0 (.element 4 0) {} _ 4 8 _ rfl inside (unlinked_of_scalar rfl 2) rfl
  have edits := (Relation.ReflTransGen.single crafted).tail stored
  refine ⟨_, _, ?_, ?_, edits, ?_, ?_, (laws.original edits).1⟩
  · rw [laws.occupants]
    decide +kernel
  · exact Bool.eq_false_iff.mpr (mt laws.equals.mp (by decide +kernel))
  · decide +kernel
  · decide +kernel

end Heap

end ScriptEngine
