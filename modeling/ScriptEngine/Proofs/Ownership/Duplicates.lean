import ScriptEngine.Proofs.Ownership.Paths
import ScriptEngine.Proofs.Ownership.Sameness
import ScriptEngine.Proofs.Ownership.Snapshots

/-!
# What a copy is made of

A copy is made of new objects, one for each position of the tree that is copied, parts
before wholes, however often the tree shows one object.  Each of them is held by one slot,
except for the root, and nothing happens to the objects that were there.
-/

namespace ScriptEngine

theorem Tree.size_pos (tree : Tree) : 0 < tree.size := by
  cases tree with
  | scalar type value => exact Nat.one_pos
  | vector type elements => exact Nat.lt_add_right _ Nat.one_pos
  | dict type entries => exact Nat.lt_add_right _ Nat.one_pos

theorem Scalar.not_equals_self {value : Scalar} (nan : value.isNan = true) :
    value.equals value = false := by
  cases value with
  | float number =>
      simp only [isNan, Binary32.isNaN] at nan
      split at nan
      · rename_i meaning
        simp only [equals, Binary32.agrees, Quantity.ofBinary32, meaning]
        rfl
      · cases nan
  | _ => cases nan

theorem Payload.children_dict_cons (key value : Address) (entries : List (Address × Address)) :
    (Payload.dict ((key, value) :: entries)).children =
      key :: value :: (Payload.dict entries).children :=
  rfl

namespace Heap

variable {heap before after later : Heap} {address root source : Address} {slots : List Address}
  {low : Nat}

/-! ## Addresses -/

/-- The root is built last. -/
theorem build_fst (tree : Tree) (heap : Heap) :
    heap.cells.size + tree.size = (heap.build tree).1 + 1 := by
  rw [← size_build tree heap]
  cases tree with
  | scalar type value => exact size_allocate
  | vector type trees => exact size_allocate
  | dict type pairs => exact size_allocate

theorem le_build_fst (tree : Tree) (heap : Heap) : heap.cells.size ≤ (heap.build tree).1 := by
  have last := build_fst tree heap
  have size := tree.size_pos
  omega

theorem build_fst_lt (tree : Tree) (heap : Heap) :
    (heap.build tree).1 < (heap.build tree).2.cells.size := by
  rw [size_build, build_fst]
  exact Nat.lt_succ_self _

theorem le_of_mem_buildAll {trees : List Tree} (member : address ∈ (heap.buildAll trees).1) :
    heap.cells.size ≤ address := by
  induction trees generalizing heap with
  | nil => cases member
  | cons tree trees induction =>
      rcases List.mem_cons.mp member with rfl | member
      · exact le_build_fst tree heap
      · exact (Extends.build heap tree).1.trans (induction member)

theorem le_of_mem_buildEntries {pairs : List (Tree × Tree)}
    (member : address ∈ (Payload.dict (heap.buildEntries pairs).1).children) :
    heap.cells.size ≤ address := by
  induction pairs generalizing heap with
  | nil => cases member
  | cons pair pairs induction =>
      have first := (Extends.build heap pair.1).1
      rcases List.mem_cons.mp member with rfl | member
      · exact le_build_fst pair.1 heap
      rcases List.mem_cons.mp member with rfl | member
      · exact first.trans (le_build_fst pair.2 _)
      · exact first.trans ((Extends.build _ pair.2).1.trans (induction member))

/-! ## Objects that were there -/

theorem get?_enterSlots_of_notMem (absent : address ∉ slots) :
    (heap.enterSlots slots).get? address = heap.get? address := by
  induction slots generalizing heap with
  | nil => rfl
  | cons first others induction =>
      rw [List.mem_cons, not_or] at absent
      rw [enterSlots, List.foldl_cons, ← enterSlots, induction absent.2, enterSlot, get?_modify,
        if_neg (Ne.symm absent.1)]

theorem get?_whole (old : address < heap.cells.size) (absent : address ∉ slots)
    (type : StaticType) (payload : Payload) :
    ((heap.enterSlots slots).allocate type payload).2.get? address = heap.get? address := by
  rw [get?_allocate_of_lt (by rwa [(Remains.enterSlots heap slots).cells]),
    get?_enterSlots_of_notMem absent]

mutual

theorem get?_build : (tree : Tree) → ∀ {heap : Heap} {address : Address},
    address < heap.cells.size → (heap.build tree).2.get? address = heap.get? address
  | .scalar type value, _, _, old => get?_allocate_of_lt old type _
  | .vector type trees, _, _, old => by
      rw [build, get?_whole (old.trans_le (Extends.buildAll _ trees).1) _ type]
      · exact get?_buildAll trees old
      · exact fun member => Nat.not_le.mpr old (le_of_mem_buildAll member)
  | .dict type pairs, _, _, old => by
      rw [build, get?_whole (old.trans_le (Extends.buildEntries _ pairs).1) _ type]
      · exact get?_buildEntries pairs old
      · exact fun member => Nat.not_le.mpr old (le_of_mem_buildEntries member)

theorem get?_buildAll : (trees : List Tree) → ∀ {heap : Heap} {address : Address},
    address < heap.cells.size → (heap.buildAll trees).2.get? address = heap.get? address
  | [], _, _, _ => rfl
  | tree :: trees, heap, _, old => by
      rw [buildAll, get?_buildAll trees (old.trans_le (Extends.build heap tree).1),
        get?_build tree old]

theorem get?_buildEntries : (pairs : List (Tree × Tree)) → ∀ {heap : Heap} {address : Address},
    address < heap.cells.size → (heap.buildEntries pairs).2.get? address = heap.get? address
  | [], _, _, _ => rfl
  | (key, value) :: pairs, heap, _, old => by
      have middle := old.trans_le (Extends.build heap key).1
      rw [buildEntries, get?_buildEntries pairs (middle.trans_le (Extends.build _ value).1),
        get?_build value middle, get?_build key old]

end

/-! ## Slots -/

theorem get?_enterSlots {object : Object} (found : heap.get? address = some object)
    (slots : List Address) :
    ∃ object', (heap.enterSlots slots).get? address = some object' ∧
      object'.slots = object.slots + slots.count address := by
  induction slots generalizing heap object with
  | nil => exact ⟨object, found, rfl⟩
  | cons first others induction =>
      have entered : (heap.enterSlot first).get? address =
          some (if first = address then { object with slots := object.slots + 1 } else object) := by
        rw [enterSlot, get?_modify, found]
        split <;> rfl
      obtain ⟨object', found', counted⟩ := induction entered
      refine ⟨object', found', ?_⟩
      rw [counted, List.count_cons]
      split
      · rename_i same
        simp only [same, beq_self_eq_true, if_true]
        omega
      · rename_i different
        simp [different]

/-- The objects of a range are there, and each is in one slot or in the list. -/
def Slotted (heap : Heap) (low high : Nat) (roots : List Address) : Prop :=
  ∀ address, low ≤ address → address < high →
    ∃ object, heap.get? address = some object ∧ object.slots + roots.count address = 1

theorem Slotted.whole (slotted : heap.Slotted low heap.cells.size slots) (type : StaticType)
    (payload : Payload) :
    ((heap.enterSlots slots).allocate type payload).2.Slotted low
      ((heap.enterSlots slots).allocate type payload).2.cells.size
      [((heap.enterSlots slots).allocate type payload).1] := by
  intro address above below
  have size : (heap.enterSlots slots).cells.size = heap.cells.size :=
    (Remains.enterSlots heap slots).cells
  have root : ((heap.enterSlots slots).allocate type payload).1 = heap.cells.size := size
  rw [size_allocate, size] at below
  rw [root, List.count_singleton]
  by_cases last : address = heap.cells.size
  · refine ⟨_, (get?_allocate _ _ _ _).trans (if_pos (last.trans size.symm)), ?_⟩
    simp [last]
  · have old : address < heap.cells.size := Nat.lt_of_le_of_ne (Nat.le_of_lt_succ below) last
    obtain ⟨object, found, once⟩ := slotted address above old
    obtain ⟨object', found', counted⟩ := get?_enterSlots found slots
    refine ⟨object', ?_, ?_⟩
    · rw [get?_allocate_of_lt (by rwa [size]), found']
    · rw [counted, once, if_neg (by simpa using Ne.symm last)]

/-- Objects that come one after the other. -/
theorem Slotted.append {middle high : Nat} {roots roots' : List Address}
    (slotted : before.Slotted low middle roots) (slotted' : after.Slotted middle high roots')
    (kept : ∀ address < middle, after.get? address = before.get? address)
    (inside : ∀ address ∈ roots, address < middle) (beyond : ∀ address ∈ roots', middle ≤ address) :
    after.Slotted low high (roots ++ roots') := by
  intro address above below
  rw [List.count_append]
  rcases Nat.lt_or_ge address middle with old | new
  · obtain ⟨object, found, once⟩ := slotted address above old
    refine ⟨object, (kept address old).trans found, ?_⟩
    rw [List.count_eq_zero_of_not_mem fun member => Nat.not_le.mpr old (beyond address member)]
    exact once
  · obtain ⟨object, found, once⟩ := slotted' address new below
    refine ⟨object, found, ?_⟩
    rw [List.count_eq_zero_of_not_mem fun member => Nat.not_lt.mpr new (inside address member),
      Nat.zero_add]
    exact once

mutual

theorem slotted_build : (tree : Tree) → ∀ heap : Heap,
    (heap.build tree).2.Slotted heap.cells.size (heap.build tree).2.cells.size [(heap.build tree).1]
  | .scalar type value, heap =>
      have nothing : heap.Slotted heap.cells.size heap.cells.size [] :=
        fun _ above below => absurd above (Nat.not_le.mpr below)
      nothing.whole type (.scalar value)
  | .vector type trees, heap => (slotted_buildAll trees heap).whole type (.vector _)
  | .dict type pairs, heap => (slotted_buildEntries pairs heap).whole type (.dict _)

theorem slotted_buildAll : (trees : List Tree) → ∀ heap : Heap,
    (heap.buildAll trees).2.Slotted heap.cells.size (heap.buildAll trees).2.cells.size
      (heap.buildAll trees).1
  | [], _ => fun _ above below => absurd above (Nat.not_le.mpr below)
  | tree :: trees, heap => by
      refine (slotted_build tree heap).append (slotted_buildAll trees _)
        (fun _ old => get?_buildAll trees old) ?_ (fun _ => le_of_mem_buildAll)
      intro address member
      rw [List.mem_singleton.mp member]
      exact build_fst_lt tree heap

theorem slotted_buildEntries : (pairs : List (Tree × Tree)) → ∀ heap : Heap,
    (heap.buildEntries pairs).2.Slotted heap.cells.size (heap.buildEntries pairs).2.cells.size
      (Payload.dict (heap.buildEntries pairs).1).children
  | [], _ => fun _ above below => absurd above (Nat.not_le.mpr below)
  | (key, value) :: pairs, heap => by
      have both := (slotted_build key heap).append (slotted_build value _)
        (fun _ old => get?_build value old) (fun address member => ?_) fun address member => ?_
      · refine both.append (slotted_buildEntries pairs _)
          (fun _ old => get?_buildEntries pairs old) ?_ (fun _ => le_of_mem_buildEntries)
        intro address member
        rcases List.mem_cons.mp member with rfl | member
        · exact (build_fst_lt key heap).trans_le (Extends.build _ value).1
        · rw [List.mem_singleton.mp member]
          exact build_fst_lt value _
      · rw [List.mem_singleton.mp member]
        exact build_fst_lt key heap
      · rw [List.mem_singleton.mp member]
        exact le_build_fst value _

end

/-! ## Positions -/

/-- The objects at the positions of a tree, parts before wholes, down to a depth. -/
def occupantsWithin (heap : Heap) : Nat → Address → List Address
  | 0, _ => []
  | depth + 1, address =>
      match heap.payload? address with
      | some payload => payload.children.flatMap (heap.occupantsWithin depth) ++ [address]
      | none => []

/-- The objects at the positions of the tree of an object. -/
def occupants (heap : Heap) (address : Address) : List Address :=
  heap.occupantsWithin (heap.cells.size + 1) address

theorem Extends.occupantsWithin_root {type : StaticType} {payload : Payload}
    (extends' : Extends ((heap.enterSlots slots).allocate type payload).2 later) (depth : Nat) :
    later.occupantsWithin (depth + 1) ((heap.enterSlots slots).allocate type payload).1 =
      payload.children.flatMap (later.occupantsWithin depth) ++ [heap.cells.size] := by
  obtain ⟨root, _, found⟩ := extends'.root
  rw [root, occupantsWithin, found]

mutual

theorem occupants_build : (tree : Tree) → ∀ {heap later : Heap} {depth : Nat},
    Extends (heap.build tree).2 later → tree.size ≤ depth →
      later.occupantsWithin depth (heap.build tree).1 = List.range' heap.cells.size tree.size
  | .scalar type value, heap, later, depth, extends', deep => by
      obtain ⟨depth, rfl⟩ := Nat.exists_eq_add_of_le' deep
      exact @Extends.occupantsWithin_root heap later [] type (.scalar value) extends' depth
  | .vector type trees, heap, later, depth, extends', deep => by
      rw [Tree.size, Nat.add_comm] at deep
      obtain ⟨depth, rfl⟩ := Nat.exists_eq_add_of_le' (Nat.le_of_add_left_le deep)
      have parts := occupants_buildAll trees ((Extends.allocate _ _ _ _).trans extends')
        (Nat.le_of_succ_le_succ deep)
      rw [build, extends'.occupantsWithin_root, Payload.children, parts, size_buildAll, Tree.size,
        Nat.add_comm 1, List.range'_1_concat]
  | .dict type pairs, heap, later, depth, extends', deep => by
      rw [Tree.size, Nat.add_comm] at deep
      obtain ⟨depth, rfl⟩ := Nat.exists_eq_add_of_le' (Nat.le_of_add_left_le deep)
      have parts := occupants_buildEntries pairs ((Extends.allocate _ _ _ _).trans extends')
        (Nat.le_of_succ_le_succ deep)
      rw [build, extends'.occupantsWithin_root, parts, size_buildEntries, Tree.size,
        Nat.add_comm 1, List.range'_1_concat]

theorem occupants_buildAll : (trees : List Tree) → ∀ {heap later : Heap} {depth : Nat},
    Extends (heap.buildAll trees).2 later → Tree.sizeAll trees ≤ depth →
      (heap.buildAll trees).1.flatMap (later.occupantsWithin depth) =
        List.range' heap.cells.size (Tree.sizeAll trees)
  | [], _, _, _, _, _ => rfl
  | tree :: trees, heap, later, depth, extends', deep => by
      rw [Tree.sizeAll] at deep
      have first := occupants_build tree ((Extends.buildAll (heap.build tree).2 trees).trans extends')
        (Nat.le_of_add_right_le deep)
      have others := occupants_buildAll trees extends' (Nat.le_of_add_left_le deep)
      rw [buildAll, List.flatMap_cons, first, others, size_build, Tree.sizeAll,
        List.range'_append_1]

theorem occupants_buildEntries : (pairs : List (Tree × Tree)) → ∀ {heap later : Heap}
    {depth : Nat}, Extends (heap.buildEntries pairs).2 later → Tree.sizeEntries pairs ≤ depth →
      (Payload.dict (heap.buildEntries pairs).1).children.flatMap (later.occupantsWithin depth) =
        List.range' heap.cells.size (Tree.sizeEntries pairs)
  | [], _, _, _, _, _ => rfl
  | (key, value) :: pairs, heap, later, depth, extends', deep => by
      rw [Tree.sizeEntries] at deep
      have wider := (Extends.buildEntries ((heap.build key).2.build value).2 pairs).trans extends'
      have first := occupants_build key ((Extends.build (heap.build key).2 value).trans wider)
        (show key.size ≤ depth by omega)
      have second := occupants_build value wider (show value.size ≤ depth by omega)
      have others := occupants_buildEntries pairs extends' (Nat.le_of_add_left_le deep)
      rw [size_build, size_build, Nat.add_assoc] at others
      rw [size_build] at second
      rw [buildEntries, Payload.children_dict_cons, List.flatMap_cons, List.flatMap_cons, first,
        second, others, Tree.sizeEntries, ← List.append_assoc, List.range'_append_1,
        Nat.add_assoc, List.range'_append_1, ← Nat.add_assoc]

end

/-! ## Walks and comparisons -/

mutual

theorem Depicts.endsWithin : (tree : Tree) → ∀ {address}, heap.Depicts address tree →
    heap.EndsWithin tree.size address
  | .scalar _ _, _, depicts => by
      rintro child ⟨payload, found, member⟩
      cases depicts.symm.trans found
      cases member
  | .vector _ trees, _, ⟨_, found, all⟩ => by
      rw [Tree.size, Nat.add_comm]
      rintro child ⟨payload, found', member⟩
      cases found.symm.trans found'
      exact depictsAll_endsWithin trees all child member
  | .dict _ pairs, _, ⟨_, found, all⟩ => by
      rw [Tree.size, Nat.add_comm]
      rintro child ⟨payload, found', member⟩
      cases found.symm.trans found'
      exact depictsEntries_endsWithin pairs all child member

theorem depictsAll_endsWithin : (trees : List Tree) → ∀ {addresses},
    heap.DepictsAll addresses trees →
      ∀ child ∈ addresses, heap.EndsWithin (Tree.sizeAll trees) child
  | [], [], _, _, member => nomatch member
  | tree :: trees, _ :: _, ⟨depicts, all⟩, child, member => by
      rw [Tree.sizeAll]
      rcases List.mem_cons.mp member with rfl | member
      · exact (depicts.endsWithin tree).mono (Nat.le_add_right _ _)
      · exact (depictsAll_endsWithin trees all child member).mono (Nat.le_add_left _ _)

theorem depictsEntries_endsWithin : (pairs : List (Tree × Tree)) → ∀ {entries},
    heap.DepictsEntries entries pairs →
      ∀ child ∈ (Payload.dict entries).children, heap.EndsWithin (Tree.sizeEntries pairs) child
  | [], [], _, _, member => nomatch member
  | (key, value) :: pairs, _ :: _, ⟨depicts, depicts', all⟩, child, member => by
      rw [Tree.sizeEntries]
      rcases List.mem_cons.mp member with rfl | member
      · exact (depicts.endsWithin key).mono (by omega)
      rcases List.mem_cons.mp member with rfl | member
      · exact (Depicts.endsWithin value depicts').mono (by omega)
      · exact (depictsEntries_endsWithin pairs all child member).mono (Nat.le_add_left _ _)

end

/-- No object is reached from both. -/
def SharesNothing (heap : Heap) (left right : Address) : Prop :=
  ∀ address, heap.Reaches {left} address → ¬ heap.Reaches {right} address

section

variable {left right : Address}

theorem SharesNothing.ne (apart : heap.SharesNothing left right) : left ≠ right := by
  rintro rfl
  have here : heap.Reaches {left} left := .root (Multiset.mem_singleton_self left)
  exact apart left here here

theorem SharesNothing.symm (apart : heap.SharesNothing left right) :
    heap.SharesNothing right left :=
  fun address reaches reaches' => apart address reaches' reaches

theorem SharesNothing.children (apart : heap.SharesNothing left right) {child child' : Address}
    (holds : heap.Holds left child) (holds' : heap.Holds right child') :
    heap.SharesNothing child child' :=
  fun address reaches reaches' => apart address (reaches.child holds) (reaches'.child holds')

mutual

/-- Without a shared object, a NaN at one position tells objects of one tree apart. -/
theorem Depicts.differs : (tree : Tree) → tree.hasNan = true → ∀ {left right},
    heap.Depicts left tree → heap.Depicts right tree → heap.SharesNothing left right →
      ∀ depth, heap.equalWithin depth left right = false
  | tree, _, _, _, _, _, apart, 0 => beq_eq_false_iff_ne.mpr apart.ne
  | .scalar _ value, nan, left, right, depicts, depicts', apart, depth + 1 => by
      rw [equalWithin_succ, beq_eq_false_iff_ne.mpr apart.ne, depicts, depicts', Bool.false_or]
      exact Scalar.not_equals_self nan
  | .vector _ trees, nan, left, right, ⟨_, found, all⟩, ⟨_, found', all'⟩, apart, depth + 1 => by
      rw [equalWithin_succ, beq_eq_false_iff_ne.mpr apart.ne, found, found', Bool.false_or]
      apply Bool.and_eq_false_imp.mpr
      intro _
      exact depictsAll_differs trees nan all all' (fun child member child' member' =>
        apart.children ⟨_, found, member⟩ ⟨_, found', member'⟩) depth
  | .dict _ pairs, nan, left, right, ⟨_, found, all⟩, ⟨_, found', all'⟩, apart, depth + 1 => by
      rw [equalWithin_succ, beq_eq_false_iff_ne.mpr apart.ne, found, found', Bool.false_or]
      apply Bool.and_eq_false_imp.mpr
      intro _
      exact depictsEntries_differs pairs nan all all' (fun child member child' member' =>
        apart.children ⟨_, found, member⟩ ⟨_, found', member'⟩) depth

theorem depictsAll_differs : (trees : List Tree) → Tree.hasNanAll trees = true →
    ∀ {lefts rights}, heap.DepictsAll lefts trees → heap.DepictsAll rights trees →
      (∀ left ∈ lefts, ∀ right ∈ rights, heap.SharesNothing left right) → ∀ depth,
        ((lefts.zip rights).all fun pair => heap.equalWithin depth pair.1 pair.2) = false
  | [], nan, _, _, _, _, _, _ => nomatch nan
  | tree :: trees, nan, left :: lefts, right :: rights, ⟨depicts, all⟩, ⟨depicts', all'⟩, apart,
      depth => by
      rw [List.zip_cons_cons, List.all_cons, Bool.and_eq_false_iff]
      rw [Tree.hasNanAll, Bool.or_eq_true] at nan
      rcases nan with nan | nan
      · have apart' := apart left List.mem_cons_self right List.mem_cons_self
        exact Or.inl (depicts.differs tree nan depicts' apart' depth)
      · exact Or.inr (depictsAll_differs trees nan all all' (fun child member child' member' =>
          apart child (List.mem_cons_of_mem _ member) child' (List.mem_cons_of_mem _ member')) depth)

theorem depictsEntries_differs : (pairs : List (Tree × Tree)) → Tree.hasNanEntries pairs = true →
    ∀ {lefts rights}, heap.DepictsEntries lefts pairs → heap.DepictsEntries rights pairs →
      (∀ left ∈ (Payload.dict lefts).children, ∀ right ∈ (Payload.dict rights).children,
        heap.SharesNothing left right) → ∀ depth,
        ((lefts.zip rights).all fun pair => heap.equalWithin depth pair.1.1 pair.2.1 &&
          heap.equalWithin depth pair.1.2 pair.2.2) = false
  | [], nan, _, _, _, _, _, _ => nomatch nan
  | (key, value) :: pairs, nan, left :: lefts, right :: rights, ⟨depicts, depicts', all⟩,
      ⟨shows, shows', all'⟩, apart, depth => by
      rw [List.zip_cons_cons, List.all_cons, Bool.and_eq_false_iff, Bool.and_eq_false_iff]
      rw [Tree.hasNanEntries, Bool.or_eq_true, Bool.or_eq_true] at nan
      rcases nan with (nan | nan) | nan
      · have apart' := apart left.1 List.mem_cons_self right.1 List.mem_cons_self
        exact Or.inl (Or.inl (depicts.differs key nan shows apart' depth))
      · have apart' := apart left.2 (List.mem_cons_of_mem _ List.mem_cons_self) right.2
          (List.mem_cons_of_mem _ List.mem_cons_self)
        exact Or.inl (Or.inr (Depicts.differs value nan depicts' shows' apart' depth))
      · have inside : ∀ {entry : Address × Address} {entries : List (Address × Address)},
            ∀ child ∈ (Payload.dict entries).children,
              child ∈ (Payload.dict (entry :: entries)).children :=
          fun child member => List.mem_append_right _ member
        exact Or.inr (depictsEntries_differs pairs nan all all' (fun child member child' member' =>
          apart child (inside child member) child' (inside child' member')) depth)

end

/-- Objects of one tree that share nothing are equal if there is no NaN in it. -/
theorem SharesNothing.equals_iff {tree : Tree} (apart : heap.SharesNothing left right)
    (ends : heap.EndsWithin heap.cells.size left) (depicts : heap.Depicts left tree)
    (depicts' : heap.Depicts right tree) : heap.equals left right = true ↔ tree.hasNan = false := by
  cases nan : tree.hasNan with
  | false => simp [ends.equals_eq depicts depicts' nan, tree.equals_self nan]
  | true => simp [equals, depicts.differs tree nan depicts' apart]

end

/-! ## Copies -/

/-- A copy has the tree of the original at every position, shares no object with it, and is
made of one new object for each position: `occupants` lists the objects at the positions, and
`List.range'` the new addresses. -/
structure CopiesFaithfully (heap : Heap) (source copy : Address) (after : Heap) : Prop where
  tree : after.tree copy = heap.tree source
  renders : ∀ nested, after.render nested copy = heap.render nested source
  apart : after.SharesNothing copy source
  occupants : after.occupants copy = List.range' heap.cells.size (heap.tree source).size
  size : after.cells.size = heap.cells.size + (heap.tree source).size
  slots : ∀ {address}, after.Reaches {copy} address →
    after.slotCount address = if address = copy then 0 else 1
  equals : after.equals source copy = true ↔ (heap.tree source).hasNan = false
  unchanged : ∀ address < heap.cells.size, after.get? address = heap.get? address

section

variable {counted handles given made : Multiset Address}

theorem Balanced.crafted (balanced : heap.Balanced counted (given + handles))
    (crafted : Crafted heap given after made) : after.Balanced counted (made + handles) := by
  have kept : heap.Balanced (0 + counted) (given + 0 + handles) := by simpa using balanced
  simpa using @crafted _ (Balanced.crafting counted handles) 0 0 kept

theorem Balanced.copy (balanced : heap.Balanced counted handles) (source : Address) :
    (heap.copy source).2.Balanced counted ((heap.copy source).1 ::ₘ handles) := by
  have started : heap.Balanced counted (0 + handles) := by rwa [zero_add]
  exact started.crafted (.copy heap source)

theorem Balanced.lt_of_reaches (balanced : heap.Balanced counted handles)
    (alive : heap.payload? root ≠ none) (reaches : heap.Reaches {root} address) :
    address < heap.cells.size := by
  cases reaches with
  | root member =>
      obtain ⟨payload, found⟩ := Option.ne_none_iff_exists'.mp alive
      rw [Multiset.mem_singleton.mp member]
      exact lt_size_of_payload? found
  | slot _ holds =>
      obtain ⟨payload, found⟩ := Option.ne_none_iff_exists'.mp (balanced.closed holds)
      exact lt_size_of_payload? found

theorem Balanced.alike_copy (balanced : heap.Balanced counted handles)
    (alive : heap.payload? source ≠ none) : Alike heap (heap.copy source).2 source := by
  obtain ⟨payload, found⟩ := Option.ne_none_iff_exists'.mp alive
  have old := lt_size_of_payload? found
  have still := (Extends.build heap (heap.tree source)).2 source old
  exact (Survives.build heap _).alike balanced (balanced.copy source) old (still ▸ alive)

theorem copiesFaithfully (balanced : heap.Balanced counted handles)
    (alive : heap.payload? source ≠ none) (acyclic : heap.AcyclicFrom source) :
    heap.CopiesFaithfully source (heap.copy source).1 (heap.copy source).2 := by
  have balanced' := balanced.copy source
  have size : (heap.copy source).2.cells.size = heap.cells.size + (heap.tree source).size :=
    size_build _ heap
  have alike := balanced.alike_copy alive
  have fresh : ∀ {address}, (heap.copy source).2.Reaches {(heap.copy source).1} address →
      heap.cells.size ≤ address :=
    (Crafted.copy heap source).young.reaches (Multiset.mem_singleton_self _)
  have apart : (heap.copy source).2.SharesNothing source (heap.copy source).1 := by
    intro address reaches reaches'
    have old := balanced.lt_of_reaches alive (alike.reaches.mp reaches)
    exact absurd old (Nat.not_lt.mpr (fresh reaches'))
  have same := tree_build heap (heap.tree source)
  refine ⟨same, fun nested => congrArg (Tree.render nested) same, apart.symm, ?_, size, ?_, ?_, ?_⟩
  · exact occupants_build _ (.refl _) (by omega)
  · intro address reaches
    have below := balanced'.lt_of_reaches (balanced'.payload?_ne_none (by simp)) reaches
    obtain ⟨object, found, once⟩ : ∃ object, (heap.copy source).2.get? address = some object ∧
        object.slots + [(heap.copy source).1].count address = 1 :=
      slotted_build (heap.tree source) heap address (fresh reaches) below
    rw [List.count_singleton] at once
    simp only [slotCount, found]
    by_cases root : address = (heap.copy source).1
    · rw [if_pos root]
      rw [if_pos (beq_iff_eq.mpr root.symm)] at once
      exact Nat.add_right_cancel once
    · rw [if_neg root]
      rwa [if_neg (by rwa [beq_iff_eq, eq_comm])] at once
  · apply apart.equals_iff _ _ (build_depicts _ heap)
    · exact (alike.endsWithin acyclic.endsWithin).mono (by omega)
    · exact (balanced.depicts acyclic.endsWithin alive).extend _ (.build heap _)
  · intro address old
    exact get?_build _ old

end

end Heap

end ScriptEngine
