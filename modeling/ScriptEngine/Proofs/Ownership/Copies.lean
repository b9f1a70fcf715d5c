import ScriptEngine.Proofs.Ownership.Keys

/-!
# Copies

A copy mirrors its original object by object, and what is built for one part of
it lies apart from what is built for the parts before.  So no two parts of a copy
are the same object, and they can be equal only if the parts of the original are:
what equality owed to identity is lost, and nothing is gained.
-/

namespace ScriptEngine

namespace Heap

/-- Nothing happens to older objects but to their counts. -/
def Extends (before after : Heap) : Prop :=
  before.cells.size ≤ after.cells.size ∧
    ∀ address < before.cells.size, after.payload? address = before.payload? address

namespace Extends

variable {before middle after heap : Heap}

theorem refl (heap : Heap) : Extends heap heap :=
  ⟨le_rfl, fun _ _ => rfl⟩

theorem trans (first : Extends before middle) (second : Extends middle after) :
    Extends before after := by
  refine ⟨first.1.trans second.1, ?_⟩
  intro address old
  rw [second.2 address (old.trans_le first.1), first.2 address old]

/-- A new object takes over the slots of its payload. -/
theorem allocate (heap : Heap) (slots : List Address) (type : StaticType) (payload : Payload) :
    Extends heap ((heap.enterSlots slots).allocate type payload).2 := by
  have size := (Remains.enterSlots heap slots).cells
  constructor
  · rw [size_allocate, size]
    exact Nat.le_succ _
  · intro address old
    rw [payload?_allocate, size, if_neg (Nat.ne_of_lt old), payload?_enterSlots]

mutual

theorem build (heap : Heap) : (tree : Tree) → Extends heap (heap.build tree).2
  | .scalar type value => allocate heap [] type (.scalar value)
  | .vector type elements => (buildAll heap elements).trans (allocate _ _ type _)
  | .dict type entries => (buildEntries heap entries).trans (allocate _ _ type _)

theorem buildAll (heap : Heap) : (trees : List Tree) → Extends heap (heap.buildAll trees).2
  | [] => refl heap
  | tree :: others => (build heap tree).trans (buildAll _ others)

theorem buildEntries (heap : Heap) :
    (entries : List (Tree × Tree)) → Extends heap (heap.buildEntries entries).2
  | [] => refl heap
  | (key, value) :: others =>
      ((build heap key).trans (build _ value)).trans (buildEntries _ others)

end

end Extends

/-! ## Mirrors -/

/-- Payloads of one shape, whose slots hold related objects. -/
def Related (related : Address → Address → Prop) : Payload → Payload → Prop
  | .scalar value, .scalar value' => value = value'
  | .vector elements, .vector elements' => List.Forall₂ related elements elements'
  | .dict entries, .dict entries' =>
      List.Forall₂ (fun entry entry' => related entry.1 entry'.1 ∧ related entry.2 entry'.2)
        entries entries'
  | _, _ => False

theorem Related.imp {related related' : Address → Address → Prop} {payload payload' : Payload}
    (alike : Related related payload payload')
    (implies : ∀ {source mirror}, related source mirror → related' source mirror) :
    Related related' payload payload' := by
  cases payload with
  | scalar value =>
      cases payload' with
      | scalar value' => exact alike
      | vector elements' => exact alike
      | dict entries' => exact alike
  | vector elements =>
      cases payload' with
      | scalar value' => exact alike
      | vector elements' => exact List.Forall₂.imp (fun _ _ => implies) alike
      | dict entries' => exact alike
  | dict entries =>
      cases payload' with
      | scalar value' => exact alike
      | vector elements' => exact alike
      | dict entries' =>
          exact List.Forall₂.imp (fun _ _ both => ⟨implies both.1, implies both.2⟩) alike

/-- Related parts are compared pair by pair. -/
theorem all_zip_of_forall₂ {α : Type} {first second : α → α → Prop} {test test' : α × α → Bool}
    {lefts lefts' rights rights' : List α} (one : List.Forall₂ first lefts lefts')
    (other : List.Forall₂ second rights rights')
    (implies : ∀ {left left' right right'}, first left left' → second right right' →
      test' (left', right') = true → test (left, right) = true)
    (all : (lefts'.zip rights').all test' = true) : (lefts.zip rights).all test = true := by
  induction one generalizing rights rights' with
  | nil => rfl
  | cons related _ induction =>
      cases other with
      | nil => rfl
      | cons related' others =>
          rw [List.zip_cons_cons, List.all_cons, Bool.and_eq_true] at all ⊢
          exact ⟨implies related related' all.1, induction others all.2⟩

theorem Related.agree {first second : Address → Address → Prop}
    {equal equal' : Address → Address → Bool} {left left' right right' : Payload}
    (one : Related first left left') (other : Related second right right')
    (implies : ∀ {left left' right right'}, first left left' → second right right' →
      equal' left' right' = true → equal left right = true)
    (agrees : Heap.agree equal' (some left') (some right') = true) :
    Heap.agree equal (some left) (some right) = true := by
  cases left' with
  | scalar value' =>
      cases right' with
      | vector elements' => simp [Heap.agree] at agrees
      | dict entries' => simp [Heap.agree] at agrees
      | scalar other' =>
          cases left with
          | vector elements => exact one.elim
          | dict entries => exact one.elim
          | scalar value =>
              cases right with
              | vector elements => exact other.elim
              | dict entries => exact other.elim
              | scalar value =>
                  cases one
                  cases other
                  exact agrees
  | vector elements' =>
      cases right' with
      | scalar other' => simp [Heap.agree] at agrees
      | dict entries' => simp [Heap.agree] at agrees
      | vector others' =>
          cases left with
          | scalar value => exact one.elim
          | dict entries => exact one.elim
          | vector elements =>
              cases right with
              | scalar value => exact other.elim
              | dict entries => exact other.elim
              | vector others =>
                  simp only [Heap.agree, Bool.and_eq_true, beq_iff_eq] at agrees ⊢
                  rw [List.Forall₂.length_eq one, List.Forall₂.length_eq other]
                  exact ⟨agrees.1, all_zip_of_forall₂ one other implies agrees.2⟩
  | dict entries' =>
      cases right' with
      | scalar other' => simp [Heap.agree] at agrees
      | vector others' => simp [Heap.agree] at agrees
      | dict others' =>
          cases left with
          | scalar value => exact one.elim
          | vector elements => exact one.elim
          | dict entries =>
              cases right with
              | scalar value => exact other.elim
              | vector elements => exact other.elim
              | dict others =>
                  simp only [Heap.agree, Bool.and_eq_true, beq_iff_eq] at agrees ⊢
                  rw [List.Forall₂.length_eq one, List.Forall₂.length_eq other]
                  refine ⟨agrees.1, all_zip_of_forall₂ one other ?_ agrees.2⟩
                  intro entry entry' pair pair' related related' both
                  rw [Bool.and_eq_true] at both ⊢
                  exact ⟨implies related.1 related'.1 both.1, implies related.2 related'.2 both.2⟩

/-- An object has the payload of another one, except that its slots hold mirrors
of what the slots of that hold; all of them lie in a range of addresses. -/
def Mirrors (original copy : Heap) (low high : Nat) : Nat → Address → Address → Prop
  | 0, _, _ => False
  | depth + 1, source, mirror =>
      (low ≤ mirror ∧ mirror < high) ∧
        ∃ payload payload', original.payload? source = some payload ∧
          copy.payload? mirror = some payload' ∧
            Related (Mirrors original copy low high depth) payload payload'

namespace Mirrors

variable {original copy : Heap} {low high : Nat}

theorem succ {depth : Nat} {source mirror : Address}
    (mirrors : Mirrors original copy low high depth source mirror) :
    ∃ depth payload payload', (low ≤ mirror ∧ mirror < high) ∧
      original.payload? source = some payload ∧ copy.payload? mirror = some payload' ∧
        Related (Mirrors original copy low high depth) payload payload' := by
  cases depth with
  | zero => exact mirrors.elim
  | succ depth =>
      obtain ⟨range, payload, payload', found, found', related⟩ := mirrors
      exact ⟨depth, payload, payload', range, found, found', related⟩

theorem widen {low' high' depth : Nat} {source mirror : Address}
    (mirrors : Mirrors original copy low high depth source mirror) (lower : low' ≤ low)
    (higher : high ≤ high') : Mirrors original copy low' high' depth source mirror := by
  induction depth generalizing source mirror with
  | zero => exact mirrors
  | succ depth induction =>
      obtain ⟨range, payload, payload', found, found', related⟩ := mirrors
      exact ⟨⟨lower.trans range.1, range.2.trans_le higher⟩, payload, payload', found, found',
        related.imp induction⟩

theorem deepen {depth deeper : Nat} {source mirror : Address}
    (mirrors : Mirrors original copy low high depth source mirror) (more : depth ≤ deeper) :
    Mirrors original copy low high deeper source mirror := by
  induction deeper generalizing depth source mirror with
  | zero =>
      rw [Nat.le_zero.mp more] at mirrors
      exact mirrors
  | succ deeper induction =>
      cases depth with
      | zero => exact mirrors.elim
      | succ depth =>
          obtain ⟨range, payload, payload', found, found', related⟩ := mirrors
          refine ⟨range, payload, payload', found, found', ?_⟩
          exact related.imp fun inner => induction inner (Nat.le_of_succ_le_succ more)

theorem ne {low' high' first second : Nat} {left left' right right' : Address}
    (one : Mirrors original copy low high first left left')
    (other : Mirrors original copy low' high' second right right') (apart : high ≤ low') :
    left' ≠ right' := by
  obtain ⟨_, _, _, range, _⟩ := one.succ
  obtain ⟨_, _, _, range', _⟩ := other.succ
  exact Nat.ne_of_lt (range.2.trans_le (apart.trans range'.1))

/-- Mirrors that lie apart are equal only if what they mirror is. -/
theorem equal {low' high' : Nat} {depth first second : Nat} {left left' right right' : Address}
    (one : Mirrors original copy low high first left left')
    (other : Mirrors original copy low' high' second right right') (apart : high ≤ low')
    (equal : copy.equalWithin depth left' right' = true) :
    original.equalWithin depth left right = true := by
  induction depth generalizing first second left left' right right' with
  | zero => exact absurd (by simpa [equalWithin] using equal) (one.ne other apart)
  | succ depth induction =>
      obtain ⟨_, payload, payload', _, found, found', related⟩ := one.succ
      obtain ⟨_, content, content', _, found₂, found₂', related'⟩ := other.succ
      have different : (left' == right') = false := by
        rw [beq_eq_false_iff_ne]
        exact one.ne other apart
      rw [equalWithin_succ, different, Bool.false_or, found', found₂'] at equal
      rw [equalWithin_succ, found, found₂, Bool.or_eq_true]
      right
      exact related.agree related' (fun one other => induction one other) equal

end Mirrors

/-! ## Lists of mirrors -/

/-- Mirrors one after the other. -/
def Apart (original copy : Heap) : Nat → Nat → List Address → List Address → Prop
  | low, high, [], [] => low ≤ high
  | low, high, source :: sources, mirror :: mirrors =>
      ∃ middle depth, Mirrors original copy low middle depth source mirror ∧
        Apart original copy middle high sources mirrors
  | _, _, _, _ => False

namespace Apart

variable {original copy : Heap} {low high : Nat} {sources mirrors : List Address}

theorem le (apart : Apart original copy low high sources mirrors) : low ≤ high := by
  induction sources generalizing low mirrors with
  | nil =>
      cases mirrors with
      | nil => exact apart
      | cons mirror mirrors => exact apart.elim
  | cons source sources induction =>
      cases mirrors with
      | nil => exact apart.elim
      | cons mirror mirrors =>
          obtain ⟨middle, depth, first, others⟩ := apart
          obtain ⟨_, _, _, range, _⟩ := first.succ
          exact (Nat.le_of_lt (range.1.trans_lt range.2)).trans (induction others)

theorem forall₂ (apart : Apart original copy low high sources mirrors) :
    List.Forall₂ (fun source mirror => ∃ depth, Mirrors original copy low high depth source mirror)
      sources mirrors := by
  induction sources generalizing low mirrors with
  | nil =>
      cases mirrors with
      | nil => exact .nil
      | cons mirror mirrors => exact apart.elim
  | cons source sources induction =>
      cases mirrors with
      | nil => exact apart.elim
      | cons mirror mirrors =>
          obtain ⟨middle, depth, first, others⟩ := apart
          obtain ⟨_, _, _, range, _⟩ := first.succ
          refine .cons ⟨depth, first.widen le_rfl others.le⟩ ?_
          refine (induction others).imp ?_
          rintro source mirror ⟨depth, mirrors⟩
          exact ⟨depth, mirrors.widen (Nat.le_of_lt (range.1.trans_lt range.2)) le_rfl⟩

/-- Mirrors of objects that differ from each other do so as well. -/
theorem pairwise (apart : Apart original copy low high sources mirrors)
    (grounded : original.Grounded) (grounded' : copy.Grounded)
    (different : sources.Pairwise fun first second => original.equals first second = false) :
    mirrors.Pairwise fun first second => copy.equals first second = false := by
  have deep : original.cells.size < original.cells.size + copy.cells.size + 1 := by omega
  have deep' : copy.cells.size < original.cells.size + copy.cells.size + 1 := by omega
  induction sources generalizing low mirrors with
  | nil =>
      cases mirrors with
      | nil => exact .nil
      | cons mirror mirrors => exact apart.elim
  | cons source sources induction =>
      cases mirrors with
      | nil => exact apart.elim
      | cons mirror mirrors =>
          obtain ⟨middle, depth, first, others⟩ := apart
          rw [List.pairwise_cons] at different ⊢
          refine ⟨?_, induction others different.2⟩
          intro other member
          obtain ⟨position, small, rfl⟩ := List.getElem_of_mem member
          have related := List.forall₂_iff_get.mp others.forall₂
          have small' : position < sources.length := by omega
          obtain ⟨depth', second⟩ := related.2 position small' small
          by_contra same
          rw [Bool.not_eq_false, ← grounded'.equals deep'] at same
          have equal := first.equal second le_rfl same
          rw [grounded.equals deep, different.1 _ (List.get_mem sources ⟨position, small'⟩)] at equal
          exact Bool.noConfusion equal

end Apart

/-! ## Trees of what is there -/

mutual

/-- A tree shows what an object holds, types aside. -/
def Depicts (heap : Heap) (address : Address) : Tree → Prop
  | .scalar _ value => heap.payload? address = some (.scalar value)
  | .vector _ trees =>
      ∃ elements, heap.payload? address = some (.vector elements) ∧
        heap.DepictsAll elements trees
  | .dict _ pairs =>
      ∃ entries, heap.payload? address = some (.dict entries) ∧
        heap.DepictsEntries entries pairs

def DepictsAll (heap : Heap) : List Address → List Tree → Prop
  | [], [] => True
  | address :: addresses, tree :: trees =>
      heap.Depicts address tree ∧ heap.DepictsAll addresses trees
  | _, _ => False

def DepictsEntries (heap : Heap) : List (Address × Address) → List (Tree × Tree) → Prop
  | [], [] => True
  | entry :: entries, (key, value) :: pairs =>
      heap.Depicts entry.1 key ∧ heap.Depicts entry.2 value ∧ heap.DepictsEntries entries pairs
  | _, _ => False

end

section Trees

variable {heap : Heap}

theorem depictsAll_map {tree : Address → Tree} {addresses : List Address}
    (depicts : ∀ address ∈ addresses, heap.Depicts address (tree address)) :
    heap.DepictsAll addresses (addresses.map tree) := by
  induction addresses with
  | nil => trivial
  | cons address others induction =>
      rw [List.forall_mem_cons] at depicts
      exact ⟨depicts.1, induction depicts.2⟩

theorem depictsEntries_map {tree : Address → Tree} {entries : List (Address × Address)}
    (depicts : ∀ entry ∈ entries, heap.Depicts entry.1 (tree entry.1) ∧
      heap.Depicts entry.2 (tree entry.2)) :
    heap.DepictsEntries entries (entries.map fun entry => (tree entry.1, tree entry.2)) := by
  induction entries with
  | nil => trivial
  | cons entry others induction =>
      rw [List.forall_mem_cons] at depicts
      exact ⟨depicts.1.1, depicts.1.2, induction depicts.2⟩

/-- A tree that is not cut off depicts an object, if all that it leads to is there. -/
theorem EndsWithin.depicts {steps depth : Nat} {address : Address}
    (ends : heap.EndsWithin steps address) (deep : steps < depth)
    (closed : ∀ {holder child}, heap.Holds holder child → heap.payload? child ≠ none)
    (alive : heap.payload? address ≠ none) :
    heap.Depicts address (heap.treeWithin depth address) := by
  induction depth generalizing steps address with
  | zero => omega
  | succ depth induction =>
      have inside : ∀ child, heap.Holds address child →
          heap.Depicts child (heap.treeWithin depth child) := by
        intro child holds
        obtain ⟨fewer, rfl, endsBelow⟩ := ends.child holds
        exact induction endsBelow (by omega) (closed holds)
      rw [treeWithin_succ]
      cases found : heap.payload? address with
      | none => exact absurd found alive
      | some payload =>
          cases payload with
          | scalar value => exact found
          | vector elements =>
              refine ⟨elements, found, depictsAll_map ?_⟩
              exact fun element member => inside element ⟨_, found, member⟩
          | dict entries =>
              refine ⟨entries, found, depictsEntries_map ?_⟩
              intro entry member
              have slots : ∀ slot ∈ [entry.1, entry.2], heap.Holds address slot := by
                intro slot chosen
                exact ⟨_, found, List.mem_flatMap.mpr ⟨entry, member, chosen⟩⟩
              exact ⟨inside _ (slots _ (by simp)), inside _ (slots _ (by simp))⟩

end Trees

/-! ## What is built is a mirror -/

section Building

variable {original copy : Heap}

/-- The object that takes over the slots of its payload. -/
theorem Extends.root {heap : Heap} {slots : List Address} {type : StaticType} {payload : Payload}
    (extends' : Extends ((heap.enterSlots slots).allocate type payload).2 copy) :
    ((heap.enterSlots slots).allocate type payload).1 = heap.cells.size ∧
      ((heap.enterSlots slots).allocate type payload).2.cells.size = heap.cells.size + 1 ∧
      copy.payload? heap.cells.size = some payload := by
  have size := (Remains.enterSlots heap slots).cells
  have grown : ((heap.enterSlots slots).allocate type payload).2.cells.size =
      heap.cells.size + 1 := by
    rw [size_allocate, size]
  refine ⟨size, grown, ?_⟩
  rw [extends'.2 _ (by omega), payload?_allocate, size, if_pos rfl]

mutual

theorem build_mirrors : (tree : Tree) → ∀ {heap : Heap} {source : Address},
    original.Depicts source tree → Extends (heap.build tree).2 copy →
      ∃ depth, Mirrors original copy heap.cells.size (heap.build tree).2.cells.size depth source
        (heap.build tree).1
  | .scalar type value, heap, source, depicts, extends' => by
      obtain ⟨_, grown, found⟩ := @Extends.root copy heap [] type (.scalar value) extends'
      refine ⟨1, ⟨le_rfl, ?_⟩, .scalar value, .scalar value, depicts, found, rfl⟩
      exact grown ▸ Nat.lt_succ_self _
  | .vector type trees, heap, source, depicts, extends' => by
      obtain ⟨elements, present, all⟩ := depicts
      obtain ⟨root, grown, found⟩ := extends'.root
      have parts := buildAll_mirrors trees all ((Extends.allocate _ _ _ _).trans extends')
      obtain ⟨depth, parts⟩ := parts
      have below := (Extends.buildAll heap trees).1
      simp only [build] at grown root ⊢
      rw [grown, root]
      refine ⟨depth + 1, ⟨below, Nat.lt_succ_self _⟩, .vector elements, _, present, found, ?_⟩
      exact parts.imp fun _ _ mirrors => mirrors.widen le_rfl (Nat.le_succ _)
  | .dict type pairs, heap, source, depicts, extends' => by
      obtain ⟨entries, present, all⟩ := depicts
      obtain ⟨root, grown, found⟩ := extends'.root
      have parts := buildEntries_mirrors pairs all ((Extends.allocate _ _ _ _).trans extends')
      obtain ⟨depth, parts⟩ := parts
      have below := (Extends.buildEntries heap pairs).1
      simp only [build] at grown root ⊢
      rw [grown, root]
      refine ⟨depth + 1, ⟨below, Nat.lt_succ_self _⟩, .dict entries, _, present, found, ?_⟩
      exact parts.imp fun _ _ both =>
        ⟨both.1.widen le_rfl (Nat.le_succ _), both.2.widen le_rfl (Nat.le_succ _)⟩

theorem buildAll_mirrors : (trees : List Tree) → ∀ {heap : Heap} {sources : List Address},
    original.DepictsAll sources trees → Extends (heap.buildAll trees).2 copy →
      ∃ depth, List.Forall₂
        (Mirrors original copy heap.cells.size (heap.buildAll trees).2.cells.size depth) sources
        (heap.buildAll trees).1
  | [], heap, [], _, _ => ⟨0, .nil⟩
  | tree :: others, heap, source :: sources, ⟨first, rest⟩, extends' => by
      have later := Extends.buildAll (heap.build tree).2 others
      obtain ⟨depth, mirror⟩ := build_mirrors tree first (later.trans extends')
      obtain ⟨depth', mirrors⟩ := buildAll_mirrors others rest extends'
      have earlier := (Extends.build heap tree).1
      refine ⟨max depth depth', .cons ?_ (mirrors.imp ?_)⟩
      · exact (mirror.widen le_rfl later.1).deepen (le_max_left _ _)
      · intro source mirror mirrors
        exact (mirrors.widen earlier le_rfl).deepen (le_max_right _ _)

theorem buildEntries_mirrors : (pairs : List (Tree × Tree)) → ∀ {heap : Heap}
    {sources : List (Address × Address)}, original.DepictsEntries sources pairs →
      Extends (heap.buildEntries pairs).2 copy →
      ∃ depth, List.Forall₂ (fun source mirror =>
        Mirrors original copy heap.cells.size (heap.buildEntries pairs).2.cells.size depth source.1
            mirror.1 ∧
          Mirrors original copy heap.cells.size (heap.buildEntries pairs).2.cells.size depth
            source.2 mirror.2) sources (heap.buildEntries pairs).1
  | [], heap, [], _, _ => ⟨0, .nil⟩
  | (key, value) :: others, heap, source :: sources, ⟨first, second, rest⟩, extends' => by
      have later := Extends.buildEntries ((heap.build key).2.build value).2 others
      have later' := Extends.build (heap.build key).2 value
      obtain ⟨depth, mirror⟩ := build_mirrors key first ((later'.trans later).trans extends')
      obtain ⟨depth', mirror'⟩ := build_mirrors value second (later.trans extends')
      obtain ⟨depth'', mirrors⟩ := buildEntries_mirrors others rest extends'
      have earlier := (Extends.build heap key).1
      have deepest := le_max_right (max depth depth') depth''
      have deeper := le_max_left (max depth depth') depth''
      refine ⟨max (max depth depth') depth'', .cons ⟨?_, ?_⟩ (mirrors.imp ?_)⟩
      · exact (mirror.widen le_rfl (later'.1.trans later.1)).deepen
          ((le_max_left _ _).trans deeper)
      · exact (mirror'.widen earlier later.1).deepen ((le_max_right _ _).trans deeper)
      · intro source mirror both
        have wide := earlier.trans later'.1
        exact ⟨(both.1.widen wide le_rfl).deepen deepest, (both.2.widen wide le_rfl).deepen deepest⟩

end

/-- The mirrors of keys lie apart. -/
theorem buildEntries_apart (pairs : List (Tree × Tree)) {heap : Heap}
    {sources : List (Address × Address)} (depicts : original.DepictsEntries sources pairs)
    (extends' : Extends (heap.buildEntries pairs).2 copy) :
    Apart original copy heap.cells.size (heap.buildEntries pairs).2.cells.size
      (sources.map Prod.fst) ((heap.buildEntries pairs).1.map Prod.fst) := by
  induction pairs generalizing heap sources with
  | nil =>
      cases sources with
      | nil => exact Nat.le_refl heap.cells.size
      | cons source sources => exact depicts.elim
  | cons pair others induction =>
      obtain ⟨key, value⟩ := pair
      cases sources with
      | nil => exact depicts.elim
      | cons source sources =>
          obtain ⟨first, _, rest⟩ := depicts
          have later := Extends.buildEntries ((heap.build key).2.build value).2 others
          have later' := Extends.build (heap.build key).2 value
          obtain ⟨depth, mirror⟩ := build_mirrors key first ((later'.trans later).trans extends')
          exact ⟨((heap.build key).2.build value).2.cells.size, depth,
            mirror.widen le_rfl later'.1, induction rest extends'⟩

/-- The keys of a dict mirror those of another one, each apart from the others. -/
def Copied (original copy : Heap) (dict : Address) : Prop :=
  ∀ entries, copy.payload? dict = some (.dict entries) →
    ∃ source low high, Apart original copy low high (original.keys source) (entries.map Prod.fst)

/-- No dict at all. -/
theorem Copied.of_payload? {dict : Address} {payload : Payload}
    (found : copy.payload? dict = some payload) (other : ∀ entries, payload ≠ .dict entries) :
    Copied original copy dict := by
  intro entries present
  rw [found, Option.some.injEq] at present
  exact absurd present (other entries)

mutual

theorem build_copied : (tree : Tree) → ∀ {heap : Heap} {source : Address},
    original.Depicts source tree → Extends (heap.build tree).2 copy →
      ∀ dict, heap.cells.size ≤ dict → dict < (heap.build tree).2.cells.size →
        Copied original copy dict
  | .scalar type value, heap, source, _, extends', dict, new, small => by
      obtain ⟨_, grown, found⟩ := @Extends.root copy heap [] type (.scalar value) extends'
      have grown : (heap.build (.scalar type value)).2.cells.size = heap.cells.size + 1 := grown
      rw [grown] at small
      obtain rfl : dict = heap.cells.size := le_antisymm (Nat.le_of_lt_succ small) new
      exact .of_payload? found fun _ => Payload.noConfusion
  | .vector type trees, heap, source, ⟨elements, _, all⟩, extends', dict, new, small => by
      obtain ⟨_, grown, found⟩ := extends'.root
      simp only [build] at small
      rw [grown] at small
      rcases Nat.lt_succ_iff_lt_or_eq.mp small with inside | rfl
      · exact buildAll_copied trees all ((Extends.allocate _ _ _ _).trans extends') dict new inside
      · exact .of_payload? found fun _ => Payload.noConfusion
  | .dict type pairs, heap, source, ⟨entries, present, all⟩, extends', dict, new, small => by
      obtain ⟨_, grown, found⟩ := extends'.root
      have parts := (Extends.allocate _ _ _ _).trans extends'
      simp only [build] at small
      rw [grown] at small
      rcases Nat.lt_succ_iff_lt_or_eq.mp small with inside | rfl
      · exact buildEntries_copied pairs all parts dict new inside
      · intro entries' found'
        rw [found, Option.some.injEq, Payload.dict.injEq] at found'
        subst found'
        have apart := buildEntries_apart pairs all parts
        rw [← keys_of_payload? present] at apart
        exact ⟨source, _, _, apart⟩

theorem buildAll_copied : (trees : List Tree) → ∀ {heap : Heap} {sources : List Address},
    original.DepictsAll sources trees → Extends (heap.buildAll trees).2 copy →
      ∀ dict, heap.cells.size ≤ dict → dict < (heap.buildAll trees).2.cells.size →
        Copied original copy dict
  | [], heap, [], _, _, dict, new, small => absurd small (Nat.not_lt_of_le new)
  | tree :: others, heap, source :: sources, ⟨first, rest⟩, extends', dict, new, small => by
      have later := Extends.buildAll (heap.build tree).2 others
      rcases Nat.lt_or_ge dict (heap.build tree).2.cells.size with inside | after
      · exact build_copied tree first (later.trans extends') dict new inside
      · exact buildAll_copied others rest extends' dict after small

theorem buildEntries_copied : (pairs : List (Tree × Tree)) → ∀ {heap : Heap}
    {sources : List (Address × Address)}, original.DepictsEntries sources pairs →
      Extends (heap.buildEntries pairs).2 copy →
      ∀ dict, heap.cells.size ≤ dict → dict < (heap.buildEntries pairs).2.cells.size →
        Copied original copy dict
  | [], heap, [], _, _, dict, new, small => absurd small (Nat.not_lt_of_le new)
  | (key, value) :: others, heap, source :: sources, ⟨first, second, rest⟩, extends', dict, new,
      small => by
      have later := Extends.buildEntries ((heap.build key).2.build value).2 others
      have later' := Extends.build (heap.build key).2 value
      rcases Nat.lt_or_ge dict (heap.build key).2.cells.size with inside | after
      · exact build_copied key first ((later'.trans later).trans extends') dict new inside
      · rcases Nat.lt_or_ge dict ((heap.build key).2.build value).2.cells.size with within | beyond
        · exact build_copied value second (later.trans extends') dict after within
        · exact buildEntries_copied others rest extends' dict beyond small

end

end Building

/-! ## Copies of keyed heaps -/

/-- What slots hold is there. -/
theorem Balanced.closed {heap : Heap} {slots handles : Multiset Address}
    (balanced : heap.Balanced slots handles) {holder child : Address}
    (holds : heap.Holds holder child) : heap.payload? child ≠ none := by
  have stored := mem_stored_iff_holds.mpr ⟨holder, holds⟩
  obtain ⟨object, alive⟩ := balanced.alive
    (Multiset.mem_add.mpr (Or.inl (Multiset.mem_add.mpr (Or.inl stored))))
  simp [payload?_of_get? alive]

theorem Sound.keyed_copy {heap : Heap} {slots handles : Multiset Address}
    (sound : heap.Sound slots handles) (keyed : heap.Keyed) (address : Address) :
    (heap.copy address).2.Keyed := by
  have crafted := Crafted.copy heap address
  have started : heap.Sound slots (0 + handles) := by rwa [zero_add]
  have sound' := started.crafted crafted
  apply crafted.survives.keyed sound sound' keyed
  intro dict new
  cases present : (heap.copy address).2.payload? dict with
  | none => simp [keys, entries, present]
  | some payload =>
      cases payload with
      | scalar value => simp [keys, entries, present]
      | vector elements => simp [keys, entries, present]
      | dict entries =>
          have small := lt_size_of_payload? present
          cases alive : heap.payload? address with
          | none =>
              have nothing : heap.copy address = heap.newScalar .none := by
                rw [copy, tree, treeWithin_succ, alive]
                rfl
              rw [nothing, newScalar, size_allocate] at small
              rw [nothing, newScalar, payload?_allocate,
                if_pos (le_antisymm (Nat.le_of_lt_succ small) new), Option.some.injEq] at present
              exact Payload.noConfusion present
          | some content =>
              have depicts := (sound.acyclic.endsWithin address).depicts (Nat.lt_succ_self _)
                sound.balanced.closed (by simp [alive])
              obtain ⟨source, _, _, apart⟩ := build_copied _ depicts (.refl _) dict new small
                entries present
              rw [keys_of_payload? present]
              exact apart.pairwise sound.grounded sound'.grounded (keyed source)

end Heap

end ScriptEngine
