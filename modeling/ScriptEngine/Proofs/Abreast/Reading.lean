import ScriptEngine.Operation.Comparison
import ScriptEngine.Proofs.Abreast.Objects

/-!
# Reading two heaps that match

Linked objects read as the same tree, have the same order and lead on to linked
objects under linked keys.  They are equal to the same objects, although what is one
object in the first heap may be two in the second: equality looks at identity
first, but two objects that stand for one hold a scalar that equals itself.
-/

namespace ScriptEngine

namespace Heap

variable {links : Links} {loose : Prop}

/-! ## Related payloads -/

namespace Related

variable {payload other content counterpart : Payload}

theorem flip (related : Related links payload other) :
    Related (fun first second => links second first) other payload := by
  cases related.beside with
  | scalar value => rfl
  | vector parts => exact parts.flip
  | dict parts => exact parts.flip

theorem kind_eq (related : Related links payload other) : payload.kind = other.kind := by
  cases related.beside with
  | scalar value => rfl
  | vector parts => rfl
  | dict parts => rfl

/-- Payloads agree if their counterparts do. -/
theorem agree_eq {beside : Links} {equal equal' : Address → Address → Bool}
    (one : Related links payload content) (another : Related beside other counterpart)
    (same : ∀ {left left' right right'}, links left left' → beside right right' →
      equal left right = equal' left' right') :
    Heap.agree equal (some payload) (some other) =
      Heap.agree equal' (some content) (some counterpart) := by
  rw [Bool.eq_iff_iff]
  constructor
  · apply one.flip.agree another.flip
    intro left left' right right' linked linked' equals
    rwa [← same linked linked']
  · apply one.agree another
    intro left left' right right' linked linked' equals
    rwa [same linked linked']

theorem vectorPosition_eq (related : Related links payload other) (length : Nat) :
    vectorPosition payload length = vectorPosition other length := by
  cases related.beside with
  | scalar value => rfl
  | vector parts => rfl
  | dict parts => rfl

end Related

/-! ## Linked results -/

/-- The same cause, or linked objects. -/
inductive Linked (links : Links) : Except Cause Address → Except Cause Address → Prop where
  | ok {first second : Address} : links first second → Linked links (.ok first) (.ok second)
  | error (cause : Cause) : Linked links (.error cause) (.error cause)

namespace Matches

variable {left right : Heap} (agree : left.Matches right links loose)
variable {first second first' second' : Address}
include agree

/-! ## One object -/

theorem scalar?_eq (linked : links first second) : left.scalar? first = right.scalar? second := by
  obtain ⟨payload, other, found, found', related⟩ := agree.payload linked
  unfold scalar?
  rw [found, found']
  cases related.beside with
  | scalar value => rfl
  | vector parts => rfl
  | dict parts => rfl

theorem kind_eq (linked : links first second) : left.kind first = right.kind second := by
  obtain ⟨payload, other, found, found', related⟩ := agree.payload linked
  unfold kind
  rw [found, found']
  exact related.kind_eq

theorem treeWithin_eq (depth : Nat) (linked : links first second) :
    left.treeWithin depth first = right.treeWithin depth second := by
  induction depth generalizing first second with
  | zero => rfl
  | succ depth induction =>
      obtain ⟨payload, other, found, found', related⟩ := agree.payload linked
      rw [treeWithin_succ, treeWithin_succ, found, found', agree.type linked]
      cases related.beside with
      | scalar value => rfl
      | vector parts =>
          simp only [Tree.vector.injEq, true_and]
          exact map_eq_of_forall₂ parts induction
      | dict parts =>
          simp only [Tree.dict.injEq, true_and]
          apply map_eq_of_forall₂ parts
          intro entry other linked
          rw [induction linked.1, induction linked.2]

theorem tree_eq (grounded : left.Grounded) (grounded' : right.Grounded)
    (linked : links first second) : left.tree first = right.tree second := by
  have deep : left.cells.size < left.cells.size + right.cells.size + 1 := by omega
  have deep' : right.cells.size < left.cells.size + right.cells.size + 1 := by omega
  rw [← grounded.tree deep, ← grounded'.tree deep']
  exact agree.treeWithin_eq _ linked

/-! ## Two objects -/

/-- Comparisons that look deeper than any slots lead. -/
theorem equalWithin_eq {steps depth : Nat} (ends : left.EndsWithin steps first)
    (deep : steps < depth) (linked : links first first') (linked' : links second second') :
    left.equalWithin depth first second = right.equalWithin depth first' second' := by
  induction depth generalizing steps first second first' second' with
  | zero => omega
  | succ depth induction =>
      obtain ⟨payload, other, found, found', related⟩ := agree.payload linked
      obtain ⟨content, counterpart, present, present', relate⟩ := agree.payload linked'
      rw [equalWithin_succ, equalWithin_succ]
      by_cases same : first = second
      · subst same
        rcases agree.shared linked linked' with rfl | ⟨_, value, alone, equal⟩
        · simp
        · -- two objects stand for one: what they hold decides
          obtain rfl := Option.some.inj (found.symm.trans alone)
          obtain rfl := Option.some.inj (present.symm.trans alone)
          cases related.beside
          cases relate.beside
          simp [Heap.agree, found', present', equal]
      · have different : first' ≠ second' := by
          rintro rfl
          exact same (agree.only linked linked')
        rw [beq_eq_false_iff_ne.mpr same, beq_eq_false_iff_ne.mpr different, found, found', present,
          present']
        congr 1
        apply Related.agree_eq related.inside relate
        rintro child child' one another ⟨below, inside, _⟩ below'
        obtain ⟨fewer, rfl, endsBelow⟩ := ends.child ⟨payload, found, inside⟩
        have shallow : fewer < depth := by omega
        exact induction endsBelow shallow below below'

theorem equals_eq (grounded : left.Grounded) (grounded' : right.Grounded)
    (linked : links first first') (linked' : links second second') :
    left.equals first second = right.equals first' second' := by
  have deep : left.cells.size < left.cells.size + right.cells.size + 1 := by omega
  have deep' : right.cells.size < left.cells.size + right.cells.size + 1 := by omega
  rw [← grounded.equals deep, ← grounded'.equals deep']
  exact agree.equalWithin_eq (grounded.acyclic.endsWithin first) deep linked linked'

theorem ordering?_eq (linked : links first first') (linked' : links second second') :
    left.ordering? first second = right.ordering? first' second' := by
  unfold ordering?
  rw [agree.scalar?_eq linked, agree.scalar?_eq linked']

theorem comparison_eq (grounded : left.Grounded) (grounded' : right.Grounded)
    (operator : ComparisonOperator) (linked : links first first')
    (linked' : links second second') :
    left.comparison operator first second = right.comparison operator first' second' := by
  unfold comparison
  rw [agree.ordering?_eq linked linked', agree.equals_eq grounded grounded' linked linked',
    agree.kind_eq linked, agree.kind_eq linked']

/-! ## Keys in containers -/

theorem findEntry?_eq (grounded : left.Grounded) (grounded' : right.Grounded)
    {entries others : List (Address × Address)}
    (related : Related links (.dict entries) (.dict others)) (linked : links first second) :
    left.findEntry? entries first = right.findEntry? others second := by
  unfold findEntry?
  have paired : List.Forall₂ (fun entry other : Address × Address =>
      links entry.1 other.1 ∧ links entry.2 other.2) entries others := related
  clear related
  induction paired with
  | nil => rfl
  | cons both _ induction =>
      rw [List.findIdx?_cons, List.findIdx?_cons, induction,
        agree.equals_eq grounded grounded' both.1 linked]

/-- Linked keys lead to the same spot of linked containers. -/
theorem spot_eq (grounded : left.Grounded) (grounded' : right.Grounded)
    (linked : links first first') (linked' : links second second') :
    left.spot first second = right.spot first' second' := by
  obtain ⟨payload, other, found, found', related⟩ := agree.payload linked
  obtain ⟨content, counterpart, present, present', relate⟩ := agree.payload linked'
  unfold spot
  rw [found, found', agree.kind_eq linked, agree.kind_eq linked']
  cases related.beside with
  | scalar value => rfl
  | vector parts => simp only [present, present', parts.length_eq, relate.vectorPosition_eq]
  | dict parts => simp only [agree.findEntry?_eq grounded grounded' related linked']

/-! ## Parts of containers -/

theorem element?_linked (linked : links first second) (position : Nat) :
    Option.Rel links (left.element? first position) (right.element? second position) := by
  obtain ⟨payload, other, found, found', related⟩ := agree.payload linked
  unfold element?
  rw [found, found']
  cases related.beside with
  | scalar value => exact .none
  | vector parts => exact rel_getElem?_of_forall₂ parts position
  | dict parts => exact .none

theorem entries_related (linked : links first second) :
    Related links (.dict (left.entries first)) (.dict (right.entries second)) := by
  obtain ⟨payload, other, found, found', related⟩ := agree.payload linked
  unfold entries
  rw [found, found']
  cases related.beside with
  | scalar value => exact .nil
  | vector parts => exact .nil
  | dict parts => exact parts

theorem entry?_linked (linked : links first second) (position : Nat) :
    Option.Rel (fun entry other => links entry.1 other.1 ∧ links entry.2 other.2)
      (left.entry? first position) (right.entry? second position) :=
  rel_getElem?_of_forall₂ (agree.entries_related linked) position

theorem valueAt_linked (grounded : left.Grounded) (grounded' : right.Grounded)
    (linked : links first first') (linked' : links second second') :
    Linked links (left.valueAt first second) (right.valueAt first' second') := by
  unfold valueAt
  rw [agree.spot_eq grounded grounded' linked linked', render, render,
    agree.tree_eq grounded grounded' linked']
  split
  · exact .error _
  · rename_i position _
    have parts := agree.element?_linked linked position
    generalize left.element? first position = one, right.element? first' position = other at parts ⊢
    cases parts with
    | some linked => exact .ok linked
    | none => exact .error _
  · rename_i position _
    have parts := agree.entry?_linked linked position
    generalize left.entry? first position = one, right.entry? first' position = other at parts ⊢
    cases parts with
    | some linked => exact .ok linked.2
    | none => exact .error _
  · exact .error _

end Matches

end Heap

end ScriptEngine
