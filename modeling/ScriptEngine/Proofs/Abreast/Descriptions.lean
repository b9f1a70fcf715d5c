import ScriptEngine.Proofs.Abreast.Operands
import ScriptEngine.Session.Description

/-!
# Described values in two heaps

Descriptions are carried out part by part.  Throughout, the heaps match along links
between what was made so far, and between all that was there before and is still referred
to; among that is what hosts hold, under the same names in both.
-/

namespace ScriptEngine

/-! ## Held objects in pairs -/

/-- What two hosts hold, by name. -/
abbrev Keepings : Type := List (String × (Address × Address))

namespace Keepings

def left (held : Keepings) : Holdings :=
  held.map fun entry => (entry.1, entry.2.1)

def right (held : Keepings) : Holdings :=
  held.map fun entry => (entry.1, entry.2.2)

theorem lookup_map {α β : Type} (change : α → β) (entries : List (String × α)) (name : String) :
    (entries.map fun entry => (entry.1, change entry.2)).lookup name =
      (entries.lookup name).map change := by
  induction entries with
  | nil => rfl
  | cons entry others induction =>
      rw [List.map_cons, List.lookup_cons, List.lookup_cons, induction]
      cases name == entry.1 <;> rfl

variable (held : Keepings) (name : String)

theorem get?_left : held.left.get? name = (held.lookup name).map Prod.fst :=
  lookup_map Prod.fst held name

theorem get?_right : held.right.get? name = (held.lookup name).map Prod.snd :=
  lookup_map Prod.snd held name

theorem isKnown_eq (description : Description) :
    description.isKnown held.left = description.isKnown held.right := by
  unfold Description.isKnown
  simp only [get?_left, get?_right, Option.isSome_map]

end Keepings

namespace Heap

/-! ## Heaps under construction -/

/-- Two heaps with what was made in them so far, by the side of what is kept. -/
structure Tandem (kept : Links) (slots handles slots' handles' : Multiset Address)
    (made : Multiset (Address × Address)) (left right : Heap) : Prop where
  sound : left.Sound slots (made.map Prod.fst + handles)
  sound' : right.Sound slots' (made.map Prod.snd + handles')
  joined : ∃ links : Links, left.Matches right links True ∧
    (∀ pair ∈ made, links pair.1 pair.2) ∧ ∀ {first second}, kept first second → links first second

/-- What is kept is referred to. -/
def Referred (kept : Links) (slots handles slots' handles' : Multiset Address) : Prop :=
  ∀ {first second}, kept first second →
    first ∈ slots + handles ∧ second ∈ slots' + handles'

variable {kept : Links} {slots handles slots' handles' : Multiset Address}
variable {made given : Multiset (Address × Address)} {left right left' right' : Heap}
variable {first second : Address}

theorem Sound.present {heap : Heap} {owned : Multiset Address} {address : Address}
    (sound : heap.Sound slots (owned + handles)) (member : address ∈ slots + handles) :
    heap.payload? address ≠ none := by
  rcases Multiset.mem_add.mp member with inside | inside
  · exact sound.slot_present inside
  · exact sound.handle_present (Multiset.mem_add.mpr (Or.inr inside))

namespace Tandem

/-- What is new is linked, and so is still what was. -/
theorem grow (referred : Referred kept slots handles slots' handles')
    (tandem : Tandem kept slots handles slots' handles' (given + made) left right)
    (sound : left'.Sound slots (first ::ₘ made.map Prod.fst + handles))
    (sound' : right'.Sound slots' (second ::ₘ made.map Prod.snd + handles'))
    (grown : ∀ {links : Links}, left.Matches right links True →
      (∀ pair ∈ given, links pair.1 pair.2) →
        (∀ {one another}, kept one another → links one another) →
          Grown links True left left' right' first second) :
    Tandem kept slots handles slots' handles' ((first, second) ::ₘ made) left' right' := by
  obtain ⟨links, agree, inside, wider⟩ := tandem.joined
  obtain ⟨links', agree', linked, still, _⟩ := grown agree
    (fun pair member => inside pair (Multiset.mem_add.mpr (Or.inl member))) wider
  refine ⟨by rwa [Multiset.map_cons], by rwa [Multiset.map_cons], links', agree', ?_, ?_⟩
  · intro pair member
    rcases Multiset.mem_cons.mp member with rfl | old
    · exact linked
    · refine still ⟨inside pair (Multiset.mem_add.mpr (Or.inr old)), ?_, ?_⟩
      · apply sound.handle_present
        exact Multiset.mem_add.mpr (Or.inl (Multiset.mem_cons_of_mem (Multiset.mem_map_of_mem _ old)))
      · apply sound'.handle_present
        exact Multiset.mem_add.mpr (Or.inl (Multiset.mem_cons_of_mem (Multiset.mem_map_of_mem _ old)))
  · intro one another known
    obtain ⟨here, there⟩ := referred known
    exact still ⟨wider known, sound.present here, sound'.present there⟩

/-- What is made of parts takes their place. -/
theorem make (referred : Referred kept slots handles slots' handles')
    (tandem : Tandem kept slots handles slots' handles' (given + made) left right)
    (crafted : Crafted left (given.map Prod.fst) left' {first})
    (crafted' : Crafted right (given.map Prod.snd) right' {second})
    (grown : ∀ {links : Links}, left.Matches right links True →
      (∀ pair ∈ given, links pair.1 pair.2) → Grown links True left left' right' first second) :
    Tandem kept slots handles slots' handles' ((first, second) ::ₘ made) left' right' := by
  have takes : ∀ {heap heap' : Heap} {address : Address} {slots given made handles},
      heap.Sound slots (given + made + handles) → Crafted heap given heap' {address} →
        heap'.Sound slots (address ::ₘ made + handles) := by
    intro heap heap' address slots given made handles sound crafted
    rw [add_assoc] at sound
    rw [Multiset.cons_add, ← Multiset.singleton_add]
    exact sound.crafted crafted
  have sound := tandem.sound
  have sound' := tandem.sound'
  rw [Multiset.map_add] at sound sound'
  exact tandem.grow referred (takes sound crafted) (takes sound' crafted') fun agree parts _ =>
    grown agree parts

/-- What takes nothing over. -/
theorem create (referred : Referred kept slots handles slots' handles')
    (tandem : Tandem kept slots handles slots' handles' made left right)
    (crafted : Crafted left 0 left' {first}) (crafted' : Crafted right 0 right' {second})
    (grown : ∀ {links : Links}, left.Matches right links True → Grown links True left left' right' first second) :
    Tandem kept slots handles slots' handles' ((first, second) ::ₘ made) left' right' := by
  rw [← zero_add made] at tandem
  exact tandem.make referred crafted crafted' fun agree _ => grown agree

/-- One more handle on what is kept. -/
theorem retain (referred : Referred kept slots handles slots' handles')
    (tandem : Tandem kept slots handles slots' handles' made left right)
    (known : kept first second) :
    Tandem kept slots handles slots' handles' ((first, second) ::ₘ made) (left.retain first)
      (right.retain second) := by
  have retained : ∀ {heap : Heap} {slots owned handles : Multiset Address} {address : Address},
      heap.Sound slots (owned + handles) → address ∈ slots + handles →
        (heap.retain address).Sound slots (address ::ₘ owned + handles) := by
    intro heap slots owned handles address sound member
    rw [Multiset.cons_add]
    refine ⟨sound.balanced.retain ?_, sound.acyclic.remains (Remains.retain heap address)⟩
    rcases Multiset.mem_add.mp member with inside | inside
    · simp [inside]
    · simp [inside]
  obtain ⟨here, there⟩ := referred known
  have sound := retained tandem.sound here
  have sound' := retained tandem.sound' there
  rw [← zero_add made] at tandem
  refine tandem.grow referred sound sound' fun agree _ wider => ?_
  have after := agree.survive (Remains.retain left first).survives
    (Remains.retain right second).survives sound.balanced.closed sound'.balanced.closed
  have new : first ∈ slots + (first ::ₘ made.map Prod.fst + handles) := by simp
  refine ⟨_, after, ⟨wider known, ?_, ?_⟩, id, .of_imp fun known => known.1⟩
  · exact sound.handle_present (by simp)
  · exact sound'.handle_present (by simp)

end Tandem

/-! ## Descriptions -/

variable {held : Keepings}

mutual

theorem Tandem.describe (referred : Referred kept slots handles slots' handles')
    (lent : ∀ entry ∈ held, kept entry.2.1 entry.2.2) : (description : Description) →
    ∀ {made left right}, Tandem kept slots handles slots' handles' made left right →
      Tandem kept slots handles slots' handles'
        (((description.allocate held.left left).1, (description.allocate held.right right).1) ::ₘ
          made)
        (description.allocate held.left left).2 (description.allocate held.right right).2
  | .scalar value, _, left, right, tandem =>
      tandem.create referred (.newScalar left value) (.newScalar right value) fun agree =>
        agree.newScalar value
  | .default type, _, left, right, tandem =>
      tandem.create referred (.newDefault left type) (.newDefault right type) fun agree =>
        agree.newDefault type
  | .held name, _, left, right, tandem => by
      simp only [Description.allocate, Keepings.get?_left, Keepings.get?_right]
      cases found : held.lookup name with
      | none =>
          exact tandem.create referred (.newScalar left .none) (.newScalar right .none) fun agree =>
            agree.newScalar .none
      | some pair =>
          obtain ⟨earlier, later, split, _⟩ := List.lookup_eq_some_iff.mp found
          exact tandem.retain referred (lent (name, pair) (by simp [split]))
  | .vector element elements, _, left, right, tandem => by
      obtain ⟨pairs, firsts, seconds, parts⟩ := Tandem.describeAll referred lent elements tandem
      simp only [Description.allocate, firsts, seconds]
      apply parts.make referred (.newVector _ element (pairs.map Prod.fst))
        (.newVector _ element (pairs.map Prod.snd))
      intro links agree inside
      apply agree.newVector
      rw [List.forall₂_map_left_iff, List.forall₂_map_right_iff, List.forall₂_same]
      exact inside
  | .dict key value entries, _, left, right, tandem => by
      obtain ⟨entries, firsts, seconds, parts⟩ :=
        Tandem.describeEntries referred lent entries tandem
      have sound := parts.sound
      have sound' := parts.sound'
      rw [Multiset.map_add, add_assoc, Multiset.map_coe, ← entries.children_left] at sound
      rw [Multiset.map_add, add_assoc, Multiset.map_coe, ← entries.children_right] at sound'
      simp only [Description.allocate, firsts, seconds]
      apply parts.make referred
      · rw [Multiset.map_coe, ← entries.children_left]
        exact .newDict _ key value entries.left
      · rw [Multiset.map_coe, ← entries.children_right]
        exact .newDict _ key value entries.right
      · intro links agree inside
        exact agree.newDict sound sound' (entries.related inside) key value

theorem Tandem.describeAll (referred : Referred kept slots handles slots' handles')
    (lent : ∀ entry ∈ held, kept entry.2.1 entry.2.2) : (descriptions : List Description) →
    ∀ {made left right}, Tandem kept slots handles slots' handles' made left right →
      ∃ pairs : List (Address × Address),
        (Description.allocateAll held.left left descriptions).1 = pairs.map Prod.fst ∧
        (Description.allocateAll held.right right descriptions).1 = pairs.map Prod.snd ∧
        Tandem kept slots handles slots' handles' (pairs + made)
          (Description.allocateAll held.left left descriptions).2
          (Description.allocateAll held.right right descriptions).2
  | [], made, _, _, tandem => ⟨[], rfl, rfl, by simpa [Description.allocateAll] using tandem⟩
  | description :: others, made, left, right, tandem => by
      have first := Tandem.describe referred lent description tandem
      obtain ⟨pairs, firsts, seconds, rest⟩ := Tandem.describeAll referred lent others first
      refine ⟨((description.allocate held.left left).1, (description.allocate held.right right).1) ::
        pairs, ?_, ?_, ?_⟩
      · simp only [Description.allocateAll, firsts, List.map_cons]
      · simp only [Description.allocateAll, seconds, List.map_cons]
      · rw [Multiset.add_cons] at rest
        rw [← Multiset.cons_coe, Multiset.cons_add]
        exact rest

theorem Tandem.describeEntries (referred : Referred kept slots handles slots' handles')
    (lent : ∀ entry ∈ held, kept entry.2.1 entry.2.2) :
    (described : List (Description × Description)) →
    ∀ {made left right}, Tandem kept slots handles slots' handles' made left right →
      ∃ entries : Entries,
        (Description.allocateEntries held.left left described).1 = entries.left ∧
        (Description.allocateEntries held.right right described).1 = entries.right ∧
        Tandem kept slots handles slots' handles' (entries.pairs + made)
          (Description.allocateEntries held.left left described).2
          (Description.allocateEntries held.right right described).2
  | [], made, _, _, tandem =>
      ⟨[], rfl, rfl, by simpa [Description.allocateEntries, Entries.pairs] using tandem⟩
  | (key, value) :: others, made, left, right, tandem => by
      have first := Tandem.describe referred lent key tandem
      have second := Tandem.describe referred lent value first
      obtain ⟨entries, firsts, seconds, rest⟩ := Tandem.describeEntries referred lent others second
      let keyed := key.allocate held.left left
      let keyed' := key.allocate held.right right
      refine ⟨((keyed.1, keyed'.1),
        ((value.allocate held.left keyed.2).1, (value.allocate held.right keyed'.2).1)) :: entries,
        ?_, ?_, ?_⟩
      · simp only [Description.allocateEntries, firsts, Entries.left, List.map_cons, keyed]
      · simp only [Description.allocateEntries, seconds, Entries.right, List.map_cons, keyed']
      · rw [Multiset.add_cons, Multiset.add_cons, Multiset.cons_swap] at rest
        rw [Entries.pairs_cons, ← Multiset.cons_coe, ← Multiset.cons_coe, Multiset.cons_add,
          Multiset.cons_add]
        exact rest

end

end Heap

end ScriptEngine
