import ScriptEngine.Interpreter.Statement
import ScriptEngine.Proofs.Abreast.Reading

/-!
# Making values in two heaps

What is made of linked parts is linked, and the links there were stay, as far as
the objects are still there.  A dict under construction finds equal keys at the same
positions of both heaps, so that it drops the same of what it is given.
-/

namespace ScriptEngine

namespace Links

/-- Further links are from objects that are new in the first heap. -/
structure Onward (links : Links) (size : Nat) (links' : Links) : Prop where
  known : ∀ {first second}, links' first second → links first second ∨ size ≤ first

variable {links links' links'' : Links} {size larger : Nat}

namespace Onward

theorem of_imp (known : ∀ {first second}, links' first second → links first second) :
    links.Onward size links' :=
  ⟨fun linked => Or.inl (known linked)⟩

theorem trans (first : links.Onward size links') (second : links'.Onward larger links'')
    (grown : size ≤ larger) : links.Onward size links'' :=
  ⟨fun linked => (second.known linked).elim first.known fun new => Or.inr (grown.trans new)⟩

theorem insert (onward : links.Onward size links') {first second : Address} (new : size ≤ first) :
    links.Onward size (links'.insert first second) := by
  constructor
  rintro known other (⟨rfl, rfl⟩ | linked)
  · exact Or.inr new
  · exact onward.known linked

end Onward

end Links

namespace Heap

variable {left right left' right' : Heap} {links : Links} {loose : Prop}
variable {slots slots' handles handles' : Multiset Address}

/-! ## What is there -/

namespace Sound

variable {heap : Heap} {address : Address}

theorem slot_present (sound : heap.Sound slots handles) (member : address ∈ slots) :
    heap.payload? address ≠ none := by
  obtain ⟨object, alive⟩ := sound.balanced.alive
    (Multiset.mem_add.mpr (Or.inl (Multiset.mem_add.mpr (Or.inr member))))
  simp [payload?_of_get? alive]

theorem handle_present (sound : heap.Sound slots handles) (member : address ∈ handles) :
    heap.payload? address ≠ none := by
  obtain ⟨object, alive⟩ := sound.balanced.alive (Multiset.mem_add.mpr (Or.inr member))
  simp [payload?_of_get? alive]

end Sound

theorem Related.within {payload other : Payload} (related : Related links payload other)
    (present : ∀ {child}, child ∈ payload.children → left.payload? child ≠ none)
    (present' : ∀ {child}, child ∈ other.children → right.payload? child ≠ none) :
    Related (links.within left right) payload other := by
  apply related.inside.imp
  rintro child counterpart ⟨linked, inside, inside'⟩
  exact ⟨linked, present inside, present' inside'⟩

/-- Linked objects that were made, with the links that there were.  An object of the first
heap that was there before is linked to nothing else. -/
def Grown (links : Links) (loose : Prop) (left left' right' : Heap) (first second : Address) : Prop :=
  ∃ links', left'.Matches right' links' loose ∧ links' first second ∧
    (∀ {known other}, links.within left' right' known other → links' known other) ∧
    links.Onward left.cells.size links'

/-- What a new object leaves alone. -/
theorem allocate_spares (heap : Heap) (added : List Address) (type : StaticType) (payload : Payload)
    {address : Address} (old : address < heap.cells.size) :
    ((heap.enterSlots added).allocate type payload).2.payload? address = heap.payload? address ∧
      ((heap.enterSlots added).allocate type payload).2.type address = heap.type address := by
  have small : address < (heap.enterSlots added).cells.size := by
    rwa [(Remains.enterSlots heap added).cells]
  have same := get?_allocate_of_lt small type payload
  constructor
  · rw [payload?, same, ← payload?, payload?_enterSlots]
  · rw [Heap.type, same, ← Heap.type, type_enterSlots]

namespace Matches

variable (agree : left.Matches right links loose)
include agree

/-! ## One object -/

/-- New objects are linked to each other if their parts are. -/
theorem allocate {payload other : Payload} (related : Related links payload other)
    (added added' : List Address) (type : StaticType) :
    ((left.enterSlots added).allocate type payload).2.Matches
      ((right.enterSlots added').allocate type other).2
      (links.insert left.cells.size right.cells.size) loose := by
  have size := (Remains.enterSlots left added).cells
  have size' := (Remains.enterSlots right added').cells
  have older : ((left.enterSlots added).allocate type payload).2.Matches
      ((right.enterSlots added').allocate type other).2 links loose := by
    constructor
    · intro first second linked
      obtain ⟨old, old'⟩ := agree.lt_size linked
      rw [(allocate_spares left added type payload old).1,
        (allocate_spares right added' type other old').1]
      exact agree.payload linked
    · intro first second linked
      obtain ⟨old, old'⟩ := agree.lt_size linked
      rw [(allocate_spares left added type payload old).2,
        (allocate_spares right added' type other old').2]
      exact agree.type linked
    · exact agree.only
    · intro first second third linked linked'
      rw [(allocate_spares left added type payload (agree.lt_size linked).1).1]
      exact agree.shared linked linked'
  have new := get?_allocate_self (left.enterSlots added) type payload
  have new' := get?_allocate_self (right.enterSlots added') type other
  rw [show ((left.enterSlots added).allocate type payload).1 = left.cells.size from size] at new
  rw [show ((right.enterSlots added').allocate type other).1 = right.cells.size from size'] at new'
  apply older.insert (payload?_of_get? new) (payload?_of_get? new') related
  · rw [Heap.type, new, Heap.type, new']
  · intro known linked
    exact Nat.lt_irrefl _ (agree.lt_size linked).2
  · refine Or.inl fun linked => ?_
    exact Nat.lt_irrefl _ (agree.lt_size linked).1

omit agree in
/-- A new object is one more linked pair. -/
theorem grown {first second : Address} (agree : left'.Matches right' (links.insert first second) loose)
    (new : left.cells.size ≤ first) : Grown links loose left left' right' first second :=
  ⟨_, agree, Or.inl ⟨rfl, rfl⟩, fun linked => Or.inr linked.1, (Links.Onward.of_imp id).insert new⟩

theorem newScalar (value : Scalar) :
    Grown links loose left (left.newScalar value).2 (right.newScalar value).2 (left.newScalar value).1
      (right.newScalar value).1 := by
  have related : Related links (.scalar value) (.scalar value) := rfl
  exact grown (agree.allocate related [] [] value.type) le_rfl

theorem newDefault (type : StaticType) :
    Grown links loose left (left.newDefault type).2 (right.newDefault type).2 (left.newDefault type).1
      (right.newDefault type).1 := by
  apply grown (agree.allocate _ [] [] type.mutable) le_rfl
  split
  · rfl
  · split
    · exact .nil
    · exact .nil

theorem newVector {elements others : List Address} (parts : List.Forall₂ links elements others)
    (element : StaticType) :
    Grown links loose left (left.newVector element elements).2 (right.newVector element others).2
      (left.newVector element elements).1 (right.newVector element others).1 := by
  have related : Related links (.vector elements) (.vector others) := parts
  have made := agree.allocate related elements others (.vector element)
  rw [← (Remains.enterSlots left elements).cells, ← (Remains.enterSlots right others).cells] at made
  exact grown made (Remains.enterSlots left elements).cells.ge

end Matches

/-! ## Copies -/

mutual

/-- One tree is built in both heaps. -/
theorem Matches.build : (tree : Tree) → ∀ {left right : Heap} {links : Links},
    left.Matches right links loose →
      ∃ links', (left.build tree).2.Matches (right.build tree).2 links' loose ∧
        links' (left.build tree).1 (right.build tree).1 ∧
        (∀ {known other}, links known other → links' known other) ∧
        links.Onward left.cells.size links'
  | .scalar type value, left, right, links, agree => by
      have related : Related links (.scalar value) (.scalar value) := rfl
      exact ⟨_, agree.allocate related [] [] type, Or.inl ⟨rfl, rfl⟩, Or.inr,
        (Links.Onward.of_imp id).insert le_rfl⟩
  | .vector type elements, left, right, links, agree => by
      obtain ⟨links', agree', parts, wider, onward⟩ := Matches.buildAll elements agree
      have related : Related links' (.vector (left.buildAll elements).1)
        (.vector (right.buildAll elements).1) := parts
      have made := agree'.allocate related (left.buildAll elements).1 (right.buildAll elements).1 type
      refine ⟨_, made, Or.inl ⟨?_, ?_⟩, fun linked => Or.inr (wider linked), onward.insert ?_⟩
      · exact (Remains.enterSlots _ _).cells
      · exact (Remains.enterSlots _ _).cells
      · exact (Survives.buildAll left elements).size
  | .dict type entries, left, right, links, agree => by
      obtain ⟨links', agree', related, wider, onward⟩ := Matches.buildEntries entries agree
      have made := agree'.allocate related (Payload.dict (left.buildEntries entries).1).children
        (Payload.dict (right.buildEntries entries).1).children type
      refine ⟨_, made, Or.inl ⟨?_, ?_⟩, fun linked => Or.inr (wider linked), onward.insert ?_⟩
      · exact (Remains.enterSlots _ _).cells
      · exact (Remains.enterSlots _ _).cells
      · exact (Survives.buildEntries left entries).size

theorem Matches.buildAll : (trees : List Tree) → ∀ {left right : Heap} {links : Links},
    left.Matches right links loose →
      ∃ links', (left.buildAll trees).2.Matches (right.buildAll trees).2 links' loose ∧
        List.Forall₂ links' (left.buildAll trees).1 (right.buildAll trees).1 ∧
        (∀ {known other}, links known other → links' known other) ∧
        links.Onward left.cells.size links'
  | [], _, _, links, agree => ⟨links, agree, .nil, id, .of_imp id⟩
  | tree :: others, left, _, _, agree => by
      obtain ⟨links', agree', linked, wider, onward⟩ := Matches.build tree agree
      obtain ⟨links'', agree'', rest, wider', onward'⟩ := Matches.buildAll others agree'
      exact ⟨links'', agree'', .cons (wider' linked) rest, fun known => wider' (wider known),
        onward.trans onward' (Survives.build left tree).size⟩

theorem Matches.buildEntries : (entries : List (Tree × Tree)) →
    ∀ {left right : Heap} {links : Links}, left.Matches right links loose →
      ∃ links', (left.buildEntries entries).2.Matches (right.buildEntries entries).2 links' loose ∧
        Related links' (.dict (left.buildEntries entries).1)
          (.dict (right.buildEntries entries).1) ∧
        (∀ {known other}, links known other → links' known other) ∧
        links.Onward left.cells.size links'
  | [], _, _, links, agree => ⟨links, agree, .nil, id, .of_imp id⟩
  | (key, value) :: others, left, _, _, agree => by
      obtain ⟨first, agree, keys, wider, onward⟩ := Matches.build key agree
      obtain ⟨second, agree, values, wider', onward'⟩ := Matches.build value agree
      obtain ⟨links', agree, rest, wider'', onward''⟩ := Matches.buildEntries others agree
      have grown := (Survives.build left key).size
      have grown' := (Survives.build (left.build key).2 value).size
      exact ⟨links', agree, .cons ⟨wider'' (wider' keys), wider'' values⟩ rest,
        fun known => wider'' (wider' (wider known)),
        (onward.trans onward' grown).trans onward'' (grown.trans grown')⟩

end

theorem Matches.copy (agree : left.Matches right links loose) (grounded : left.Grounded)
    (grounded' : right.Grounded) {first second : Address} (linked : links first second) :
    Grown links loose left (left.copy first).2 (right.copy second).2 (left.copy first).1
      (right.copy second).1 := by
  obtain ⟨links', agree', made, wider, onward⟩ := Matches.build (left.tree first) agree
  unfold Heap.copy
  rw [← agree.tree_eq grounded grounded' linked]
  exact ⟨links', agree', made, fun known => wider known.1, onward⟩

/-! ## Dicts -/

theorem Related.setEntry {entries others : List (Address × Address)} {value value' : Address}
    (related : Related links (.dict entries) (.dict others)) (position : Nat)
    (linked : links value value') :
    Related links (.dict (setEntry entries position value))
      (.dict (Heap.setEntry others position value')) :=
  modify_of_forall₂ related position fun both => ⟨both.1, linked⟩

/-- What is gone does not come back. -/
theorem Remains.present {before after : Heap} (remains : Remains before after) {address : Address}
    (alive : after.payload? address ≠ none) : before.payload? address ≠ none := by
  obtain ⟨payload, found⟩ := Option.ne_none_iff_exists'.mp alive
  simp [remains.payload found]

namespace Matches

variable {entries others : List (Address × Address)} {key key' value value' : Address}

/-- A key that is there already takes the later value in both heaps. -/
theorem insertPair (agree : left.Matches right links loose)
    (sound : left.Sound ((Payload.dict entries).children + slots) (key ::ₘ value ::ₘ handles))
    (sound' : right.Sound ((Payload.dict others).children + slots')
      (key' ::ₘ value' ::ₘ handles'))
    (related : Related links (.dict entries) (.dict others)) (keys : links key key')
    (values : links value value') :
    (left.insertPair entries key value).2.Sound
        ((Payload.dict (left.insertPair entries key value).1).children + slots) handles ∧
      (right.insertPair others key' value').2.Sound
        ((Payload.dict (right.insertPair others key' value').1).children + slots') handles' ∧
      (left.insertPair entries key value).2.Matches (right.insertPair others key' value').2
        (links.within (left.insertPair entries key value).2
          (right.insertPair others key' value').2) loose ∧
      Related (links.within (left.insertPair entries key value).2
          (right.insertPair others key' value').2)
        (.dict (left.insertPair entries key value).1)
        (.dict (right.insertPair others key' value').1) := by
  have kept : ∀ {heap : Heap} {entries : List (Address × Address)} {key value : Address}
      {slots handles : Multiset Address},
      heap.Sound ((Payload.dict entries).children + slots) (key ::ₘ value ::ₘ handles) →
        (heap.insertPair entries key value).2.Sound
          ((Payload.dict (heap.insertPair entries key value).1).children + slots) handles := by
    intro heap entries key value slots handles sound
    have started : heap.Sound ((Payload.dict entries).children + 0 + slots)
        (key ::ₘ value ::ₘ 0 + handles) := by
      simpa using sound
    have inserted := (Sound.crafting slots handles).insertPair started
    simpa using inserted
  have after := kept sound
  have after' := kept sound'
  refine ⟨after, after', ?_, ?_⟩
  · exact agree.survive (Remains.insertPair _ _ _ _).survives (Remains.insertPair _ _ _ _).survives
      after.balanced.closed after'.balanced.closed
  · apply Related.within
    · unfold Heap.insertPair
      rw [agree.findEntry?_eq sound.grounded sound'.grounded related keys]
      cases right.findEntry? others key' with
      | some position => exact related.setEntry position values
      | none => exact List.rel_append related (.cons ⟨keys, values⟩ .nil)
    · intro child member
      exact after.slot_present (Multiset.mem_add.mpr (Or.inl (Multiset.mem_coe.mpr member)))
    · intro child member
      exact after'.slot_present (Multiset.mem_add.mpr (Or.inl (Multiset.mem_coe.mpr member)))

/-- One pair after the other is taken into a dict. -/
theorem insertPairs {pairs pairs' : List (Address × Address)} (agree : left.Matches right links loose)
    (sound : left.Sound ((Payload.dict entries).children + slots)
      ((Payload.dict pairs).children + handles))
    (sound' : right.Sound ((Payload.dict others).children + slots')
      ((Payload.dict pairs').children + handles'))
    (related : Related links (.dict entries) (.dict others))
    (parts : Related links (.dict pairs) (.dict pairs')) :
    ∃ links', (left.insertPairs entries pairs).2.Matches (right.insertPairs others pairs').2 links' loose ∧
      Related links' (.dict (left.insertPairs entries pairs).1)
        (.dict (right.insertPairs others pairs').1) ∧
      (∀ {known other}, links.within (left.insertPairs entries pairs).2
        (right.insertPairs others pairs').2 known other → links' known other) ∧
      ∀ {known other}, links' known other → links known other := by
  induction pairs generalizing left right links entries others pairs' with
  | nil =>
      cases pairs' with
      | nil => exact ⟨links, agree, related, fun known => known.1, id⟩
      | cons pair pairs' => cases parts
  | cons pair pairs induction =>
      cases pairs' with
      | nil => cases parts
      | cons pair' pairs' =>
          obtain ⟨key, value⟩ := pair
          obtain ⟨key', value'⟩ := pair'
          rw [Related, List.forall₂_cons] at parts
          obtain ⟨⟨keys, values⟩, parts⟩ := parts
          have given : left.Sound ((Payload.dict entries).children + slots)
              (key ::ₘ value ::ₘ ((Payload.dict pairs).children + handles)) := by
            simpa [Payload.children, ← Multiset.cons_coe] using sound
          have given' : right.Sound ((Payload.dict others).children + slots')
              (key' ::ₘ value' ::ₘ ((Payload.dict pairs').children + handles')) := by
            simpa [Payload.children, ← Multiset.cons_coe] using sound'
          obtain ⟨after, after', agree', related'⟩ :=
            agree.insertPair given given' related keys values
          have rest : Related (links.within (left.insertPair entries key value).2
              (right.insertPair others key' value').2) (.dict pairs) (.dict pairs') := by
            apply Related.within (show Related links (.dict pairs) (.dict pairs') from parts)
            · intro child member
              exact after.handle_present (Multiset.mem_add.mpr (Or.inl (Multiset.mem_coe.mpr member)))
            · intro child member
              exact after'.handle_present (Multiset.mem_add.mpr (Or.inl (Multiset.mem_coe.mpr member)))
          obtain ⟨links', last, all, wider, old⟩ := induction agree' after after' related' rest
          refine ⟨links', last, all, ?_, fun linked => (old linked).1⟩
          rintro known other ⟨linked, alive, alive'⟩
          have remains := Remains.insertPairs (left.insertPair entries key value).2
            (left.insertPair entries key value).1 pairs
          have remains' := Remains.insertPairs (right.insertPair others key' value').2
            (right.insertPair others key' value').1 pairs'
          exact wider ⟨⟨linked, remains.present alive, remains'.present alive'⟩, alive, alive'⟩

/-- A dict of linked pairs. -/
theorem newDict {pairs pairs' : List (Address × Address)} (agree : left.Matches right links loose)
    (sound : left.Sound slots ((Payload.dict pairs).children + handles))
    (sound' : right.Sound slots' ((Payload.dict pairs').children + handles'))
    (parts : Related links (.dict pairs) (.dict pairs')) (key value : StaticType) :
    Grown links loose left (left.newDict key value pairs).2 (right.newDict key value pairs').2
      (left.newDict key value pairs).1 (right.newDict key value pairs').1 := by
  have related : Related links (.dict []) (.dict []) := .nil
  obtain ⟨links', agree', all, wider, old⟩ := agree.insertPairs
    (by simpa [Payload.children] using sound) (by simpa [Payload.children] using sound') related parts
  refine ⟨_, agree'.allocate all [] [] (.dict key value), Or.inl ⟨rfl, rfl⟩, ?_,
    (Links.Onward.of_imp old).insert (Remains.insertPairs left [] pairs).cells.ge⟩
  rintro known other ⟨linked, alive, alive'⟩
  obtain ⟨old, old'⟩ := agree.lt_size linked
  rw [← (Remains.insertPairs left [] pairs).cells] at old
  rw [← (Remains.insertPairs right [] pairs').cells] at old'
  refine Or.inr (wider ⟨linked, ?_, ?_⟩)
  · rw [← (allocate_spares _ [] (.dict key value) (.dict _) old).1]
    exact alive
  · rw [← (allocate_spares _ [] (.dict key value) (.dict _) old').1]
    exact alive'

end Matches

end Heap

end ScriptEngine
