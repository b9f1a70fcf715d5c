import ScriptEngine.Proofs.Ownership.Sealing

/-!
# Objects of two heaps

Links relate the objects of two heaps.  The heaps match along them if linked
objects have one type and hold the same scalar, or linked objects in as many slots,
and if links tell objects apart as addresses do.  One object of the first heap may
stand for several of the second only if the links are loose, and only if it is a scalar
that equals itself: on that alone identity can be lost without being noticed, as long as
nothing asks for it.
-/

namespace ScriptEngine

/-! ## Lists position by position -/

section Lists

variable {α β γ : Type} {relation other : α → β → Prop} {left : List α} {right : List β}

/-- Only what is in the lists has to be looked at. -/
theorem forall₂_of_mem (related : List.Forall₂ relation left right)
    (implies : ∀ {first second}, first ∈ left → second ∈ right → relation first second →
      other first second) : List.Forall₂ other left right := by
  rw [List.forall₂_iff_zip] at related ⊢
  refine ⟨related.1, fun member => ?_⟩
  obtain ⟨inside, inside'⟩ := List.of_mem_zip member
  exact implies inside inside' (related.2 member)

theorem map_eq_of_forall₂ {one : α → γ} {another : β → γ}
    (related : List.Forall₂ relation left right)
    (same : ∀ {first second}, relation first second → one first = another second) :
    left.map one = right.map another := by
  induction related with
  | nil => rfl
  | cons first _ induction => rw [List.map_cons, List.map_cons, same first, induction]

/-- Both are there, or neither. -/
theorem cases_of_rel {one : Option α} {another : Option β} (related : Option.Rel relation one another) :
    one = none ∧ another = none ∨
      ∃ first second, one = some first ∧ another = some second ∧ relation first second := by
  cases related with
  | some linked => exact Or.inr ⟨_, _, rfl, rfl, linked⟩
  | none => exact Or.inl ⟨rfl, rfl⟩

theorem rel_imp {one : Option α} {another : Option β} (related : Option.Rel relation one another)
    (implies : ∀ {first second}, relation first second → other first second) :
    Option.Rel other one another := by
  cases related with
  | some linked => exact .some (implies linked)
  | none => exact .none

theorem rel_getElem?_of_forall₂ (related : List.Forall₂ relation left right) (position : Nat) :
    Option.Rel relation left[position]? right[position]? := by
  induction related generalizing position with
  | nil => exact .none
  | cons first _ induction =>
      cases position with
      | zero => exact .some first
      | succ position => simpa using induction position

theorem modify_of_forall₂ {change : α → α} {change' : β → β}
    (related : List.Forall₂ relation left right) (position : Nat)
    (keeps : ∀ {first second}, relation first second → relation (change first) (change' second)) :
    List.Forall₂ relation (left.modify position change) (right.modify position change') := by
  induction related generalizing position with
  | nil => simp
  | cons first rest induction =>
      cases position with
      | zero => exact .cons (keeps first) rest
      | succ position => exact .cons first (induction position)

end Lists

/-! ## Links -/

/-- Pairs of objects, one of each heap. -/
abbrev Links : Type := Address → Address → Prop

namespace Links

/-- One more pair. -/
def insert (links : Links) (first second : Address) : Links :=
  fun other counterpart => other = first ∧ counterpart = second ∨ links other counterpart

/-- The pairs of objects that are there. -/
def within (links : Links) (left right : Heap) : Links :=
  fun first second =>
    links first second ∧ left.payload? first ≠ none ∧ right.payload? second ≠ none

end Links

namespace Heap

structure Matches (left right : Heap) (links : Links) (loose : Prop) : Prop where
  payload : ∀ {first second}, links first second →
    ∃ payload other, left.payload? first = some payload ∧ right.payload? second = some other ∧
      Related links payload other
  type : ∀ {first second}, links first second → left.type first = right.type second
  /-- No object of the second heap stands for several of the first. -/
  only : ∀ {first other second}, links first second → links other second → first = other
  shared : ∀ {first second other}, links first second → links first other →
    second = other ∨ loose ∧ ∃ value, left.payload? first = some (.scalar value) ∧
      value.equals value = true

variable {left right left' right' : Heap} {links : Links} {loose : Prop} {first second : Address}

/-! ## Related payloads -/

/-- What related payloads look like. -/
inductive Beside (links : Links) : Payload → Payload → Prop where
  | scalar (value : Scalar) : Beside links (.scalar value) (.scalar value)
  | vector {elements others : List Address} :
      List.Forall₂ links elements others → Beside links (.vector elements) (.vector others)
  | dict {entries others : List (Address × Address)} :
      List.Forall₂ (fun entry other => links entry.1 other.1 ∧ links entry.2 other.2) entries
        others →
      Beside links (.dict entries) (.dict others)

namespace Related

variable {payload other : Payload}

theorem beside (related : Related links payload other) : Beside links payload other := by
  cases payload with
  | scalar value =>
      cases other with
      | scalar value =>
          cases related
          exact .scalar _
      | vector elements => exact related.elim
      | dict entries => exact related.elim
  | vector elements =>
      cases other with
      | scalar value => exact related.elim
      | vector others => exact .vector related
      | dict entries => exact related.elim
  | dict entries =>
      cases other with
      | scalar value => exact related.elim
      | vector elements => exact related.elim
      | dict others => exact .dict related

/-- Related parts are among the parts. -/
theorem inside (related : Related links payload other) :
    Related (fun child counterpart =>
      links child counterpart ∧ child ∈ payload.children ∧ counterpart ∈ other.children)
      payload other := by
  cases related.beside with
  | scalar value => rfl
  | vector parts => exact forall₂_of_mem parts fun member member' linked => ⟨linked, member, member'⟩
  | dict parts =>
      have slots : ∀ {entries : List (Address × Address)} {entry}, entry ∈ entries →
          entry.1 ∈ (Payload.dict entries).children ∧
            entry.2 ∈ (Payload.dict entries).children := by
        intro entries entry member
        exact ⟨List.mem_flatMap.mpr ⟨entry, member, by simp⟩,
          List.mem_flatMap.mpr ⟨entry, member, by simp⟩⟩
      apply forall₂_of_mem parts
      rintro entry other member member' ⟨keys, values⟩
      exact ⟨⟨keys, (slots member).1, (slots member').1⟩,
        values, (slots member).2, (slots member').2⟩

theorem self (linked : ∀ child ∈ payload.children, links child child) :
    Related links payload payload := by
  cases payload with
  | scalar value => rfl
  | vector elements => exact List.forall₂_same.mpr linked
  | dict entries =>
      apply List.forall₂_same.mpr
      intro entry member
      constructor
      · exact linked _ (List.mem_flatMap.mpr ⟨entry, member, by simp⟩)
      · exact linked _ (List.mem_flatMap.mpr ⟨entry, member, by simp⟩)

end Related

/-! ## Heaps that match -/

namespace Matches

theorem lt_size (agree : left.Matches right links loose) (linked : links first second) :
    first < left.cells.size ∧ second < right.cells.size := by
  obtain ⟨payload, other, found, found', _⟩ := agree.payload linked
  exact ⟨lt_size_of_payload? found, lt_size_of_payload? found'⟩

/-- What survives matches, as far as it is there on both sides. -/
theorem survive (agree : left.Matches right links loose) (survives : Survives left left')
    (survives' : Survives right right')
    (closed : ∀ {holder child}, left'.Holds holder child → left'.payload? child ≠ none)
    (closed' : ∀ {holder child}, right'.Holds holder child → right'.payload? child ≠ none) :
    left'.Matches right' (links.within left' right') loose where
  payload := by
    rintro first second ⟨linked, alive, alive'⟩
    obtain ⟨old, old'⟩ := agree.lt_size linked
    obtain ⟨payload, other, found, found', related⟩ := agree.payload linked
    rw [← survives.payload?_eq old alive] at found
    rw [← survives'.payload?_eq old' alive'] at found'
    refine ⟨payload, other, found, found', related.inside.imp ?_⟩
    rintro child counterpart ⟨linked, inside, inside'⟩
    exact ⟨linked, closed ⟨_, found, inside⟩, closed' ⟨_, found', inside'⟩⟩
  type := by
    rintro first second ⟨linked, alive, alive'⟩
    obtain ⟨old, old'⟩ := agree.lt_size linked
    obtain ⟨payload, present⟩ := Option.ne_none_iff_exists'.mp alive
    obtain ⟨other, present'⟩ := Option.ne_none_iff_exists'.mp alive'
    rw [survives.type old present, survives'.type old' present', agree.type linked]
  only linked linked' := agree.only linked.1 linked'.1
  shared := by
    rintro first second other ⟨linked, alive, _⟩ linked'
    rw [survives.payload?_eq (agree.lt_size linked).1 alive]
    exact agree.shared linked linked'.1

/-- A pair whose second object is linked to nothing yet.  So is its first object, or
it is a scalar that equals itself. -/
theorem insert (agree : left.Matches right links loose) {payload other : Payload}
    (found : left.payload? first = some payload) (found' : right.payload? second = some other)
    (related : Related links payload other) (type : left.type first = right.type second)
    (fresh : ∀ {known}, ¬ links known second)
    (apart : (∀ {known}, ¬ links first known) ∨
      loose ∧ ∃ value, payload = .scalar value ∧ value.equals value = true) :
    left.Matches right (links.insert first second) loose where
  payload := by
    have wider : ∀ {payload other}, Related links payload other →
        Related (links.insert first second) payload other :=
      fun related => related.imp Or.inr
    rintro one other (⟨rfl, rfl⟩ | linked)
    · exact ⟨payload, _, found, found', wider related⟩
    · obtain ⟨content, counterpart, present, present', relate⟩ := agree.payload linked
      exact ⟨content, counterpart, present, present', wider relate⟩
  type := by
    rintro one other (⟨rfl, rfl⟩ | linked)
    · exact type
    · exact agree.type linked
  only := by
    rintro one other third (⟨rfl, rfl⟩ | linked) (⟨rfl, same⟩ | linked')
    · rfl
    · exact absurd linked' fresh
    · subst same
      exact absurd linked fresh
    · exact agree.only linked linked'
  shared := by
    have single : ∀ {known}, links first known →
        loose ∧ ∃ value, left.payload? first = some (.scalar value) ∧ value.equals value = true := by
      intro known linked
      obtain ⟨loosely, value, rfl, equal⟩ := apart.resolve_left fun unlinked => unlinked linked
      exact ⟨loosely, value, found, equal⟩
    rintro one other third (⟨rfl, rfl⟩ | linked) (⟨same, rfl⟩ | linked')
    · exact Or.inl rfl
    · exact Or.inr (single linked')
    · subst same
      exact Or.inr (single linked)
    · exact agree.shared linked linked'

/-- Linked containers are written to alike. -/
theorem replace (agree : left.Matches right links loose) {payload other : Payload}
    (linked : links first second) (shape : left.IsContainer first)
    (replaces : left.Replaces left' first payload)
    (replaces' : right.Replaces right' second other) (related : Related links payload other) :
    left'.Matches right' links loose := by
  have together : ∀ {one counterpart}, links one counterpart →
      (first = one ↔ second = counterpart) := by
    intro one counterpart linked'
    constructor
    · rintro rfl
      rcases agree.shared linked linked' with same | ⟨_, value, found, _⟩
      · exact same
      · obtain ⟨content, present, shape⟩ := shape
        obtain rfl := Option.some.inj (found.symm.trans present)
        exact shape.elim
    · rintro rfl
      exact agree.only linked linked'
  constructor
  · intro one counterpart linked'
    by_cases same : first = one
    · obtain rfl := same
      obtain rfl := (together linked').mp rfl
      exact ⟨payload, other, replaces.written, replaces'.written, related⟩
    · rw [replaces.spared same, replaces'.spared fun equal => same ((together linked').mpr equal)]
      exact agree.payload linked'
  · intro one counterpart linked'
    rw [replaces.type, replaces'.type]
    exact agree.type linked'
  · exact agree.only
  · intro one counterpart another linked' linked''
    rcases agree.shared linked' linked'' with same | ⟨loosely, value, found, equal⟩
    · exact Or.inl same
    · refine Or.inr ⟨loosely, value, ?_, equal⟩
      rw [replaces.spared, found]
      rintro rfl
      obtain ⟨content, present, shape⟩ := shape
      obtain rfl := Option.some.inj (found.symm.trans present)
      exact shape.elim

end Matches

end Heap

end ScriptEngine
