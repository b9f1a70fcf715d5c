import ScriptEngine.Proofs.Ownership.Evolution

/-!
# Sprouts

A walk to a place creates the entries that it misses.  The first of them is added to
a dict that was there, with the default of its value type; from there on each entry
is added to the default that the one before it got.  Nothing else changes, so the
entries are a chain that sprouts from one dict.
-/

namespace ScriptEngine

/-- What a variable of the type holds before anything is assigned to it. -/
def StaticType.initial (type : StaticType) : Payload :=
  match Scalar.default? type.kind with
  | .some value => .scalar value
  | .none => if type.kind = .dict then .dict [] else .vector []

theorem StaticType.initial_eq_dict {type : StaticType} {entries : List (Address × Address)}
    (initial : type.initial = .dict entries) : entries = [] := by
  unfold StaticType.initial at initial
  split at initial
  · cases initial
  · split at initial
    · cases initial
      rfl
    · cases initial

namespace Heap

variable {heap before middle after keyed : Heap} {changed address : Address}
variable {slots handles slots' handles' : Multiset Address}

theorem newDefault_eq (heap : Heap) (type : StaticType) :
    heap.newDefault type = heap.allocate type.mutable type.initial := rfl

/-! ## One object that is different -/

/-- Objects that live on are as they were, but for the payload of one. -/
structure SurvivesBut (changed : Address) (before after : Heap) : Prop where
  size : before.cells.size ≤ after.cells.size
  payload : ∀ {address payload}, address < before.cells.size → changed ≠ address →
    after.payload? address = some payload → before.payload? address = some payload
  type : ∀ {address payload}, address < before.cells.size →
    after.payload? address = some payload → after.type address = before.type address
  gone : ∀ {address}, address < before.cells.size → before.payload? address = none →
    after.payload? address = none

theorem Survives.but (survives : Survives before after) (changed : Address) :
    SurvivesBut changed before after :=
  ⟨survives.size, fun old _ found => survives.payload old found, survives.type, survives.gone⟩

namespace SurvivesBut

/-- What is younger than a heap is no object of it. -/
theorem trans_young {young : Address} (first : SurvivesBut changed before middle)
    (second : SurvivesBut young middle after)
    (younger : young = changed ∨ before.cells.size ≤ young) :
    SurvivesBut changed before after := by
  have apart : ∀ {address}, address < before.cells.size → changed ≠ address → young ≠ address := by
    rintro address old different rfl
    rcases younger with rfl | beyond
    · exact different rfl
    · omega
  refine ⟨first.size.trans second.size, ?_, ?_, ?_⟩
  · intro address payload old different found
    exact first.payload old different
      (second.payload (old.trans_le first.size) (apart old different) found)
  · intro address payload old found
    have small := old.trans_le first.size
    have types := second.type small found
    cases between : middle.payload? address with
    | none => simp [second.gone small between] at found
    | some payload' => exact types.trans (first.type old between)
  · intro address old absent
    exact second.gone (old.trans_le first.size) (first.gone old absent)

theorem trans (first : SurvivesBut changed before middle)
    (second : SurvivesBut changed middle after) : SurvivesBut changed before after :=
  first.trans_young second (Or.inl rfl)

theorem survives (first : SurvivesBut changed before middle) (second : Survives middle after) :
    SurvivesBut changed before after :=
  first.trans (second.but changed)

/-- What a dict that lives on holds is alike if that dict alone is different. -/
theorem alike {child : Address} (but : SurvivesBut changed before after)
    (balanced : before.Balanced slots handles) (balanced' : after.Balanced slots' handles')
    (acyclic : after.Acyclic) (holds : after.Holds changed child)
    (old : child < before.cells.size) : Alike before after child := by
  have alive : ∀ {holder child}, after.Holds holder child → ∃ object, after.get? child = some object := by
    intro holder child holds
    apply balanced'.alive
    simp [mem_stored_iff_holds.mpr ⟨holder, holds⟩]
  have living : ∀ {address}, before.Reaches {child} address →
      address < before.cells.size ∧ Relation.TransGen after.Holds changed address := by
    intro address reaches
    induction reaches with
    | root member =>
        rw [Multiset.mem_singleton.mp member]
        exact ⟨old, .single holds⟩
    | @slot holder inner _ stored induction =>
        obtain ⟨small, path⟩ := induction
        have different : changed ≠ holder := by
          rintro rfl
          exact acyclic _ path
        obtain ⟨above, _, held⟩ := Relation.TransGen.tail'_iff.mp path
        obtain ⟨object, present⟩ := alive held
        have inside := mem_stored_iff_holds.mpr ⟨holder, stored⟩
        obtain ⟨payload, found, member⟩ := stored
        have same := but.payload small different (payload?_of_get? present)
        cases found.symm.trans same
        refine ⟨balanced.lt_size (by simp [inside]), path.tail ⟨_, payload?_of_get? present, member⟩⟩
  intro address reaches
  obtain ⟨small, path⟩ := living reaches
  obtain ⟨above, _, held⟩ := Relation.TransGen.tail'_iff.mp path
  obtain ⟨object, present⟩ := alive held
  have found := payload?_of_get? present
  have different : changed ≠ address := by
    rintro rfl
    exact acyclic _ path
  exact ⟨found.trans (but.payload small different found).symm, but.type small found⟩

end SurvivesBut

/-! ## One more entry -/

section

variable {dict key : Address} {entries : List (Address × Address)}

theorem payload?_newDefault {payload : Payload} (type : StaticType)
    (found : heap.payload? address = some payload) :
    (heap.newDefault type).2.payload? address = some payload := by
  rw [newDefault_eq, payload?_allocate, if_neg (Nat.ne_of_lt (lt_size_of_payload? found)), found]

/-- A new entry changes its dict alone. -/
theorem SurvivesBut.createEntry (found : heap.payload? dict = some (.dict entries)) :
    SurvivesBut dict heap (heap.createEntry dict key entries) := by
  have made := (Crafted.newDefault heap ((heap.type dict).parameter 1)).survives
  obtain ⟨still, written⟩ := createEntry_replaces key found
  have replaced : SurvivesBut dict (heap.newDefault ((heap.type dict).parameter 1)).2
      (heap.createEntry dict key entries) := by
    refine ⟨written.cells.ge, ?_, fun _ _ => written.type _, ?_⟩
    · intro address payload _ different present
      rwa [written.spared different] at present
    · intro address _ absent
      rw [written.spared, absent]
      rintro rfl
      simp [still] at absent
  exact (made.but dict).trans replaced

theorem payload?_createEntry (key : Address) (found : heap.payload? dict = some (.dict entries)) :
    (heap.createEntry dict key entries).payload? dict =
      some (.dict (entries ++ [(key, heap.cells.size)])) :=
  (createEntry_replaces key found).2.written

/-- What is there stays there. -/
theorem payload?_createEntry_of_ne {payload : Payload} (key : Address)
    (found : heap.payload? dict = some (.dict entries)) (different : dict ≠ address)
    (present : heap.payload? address = some payload) :
    (heap.createEntry dict key entries).payload? address = some payload := by
  rw [(createEntry_replaces key found).2.spared different]
  exact payload?_newDefault _ present

theorem type_createEntry {payload : Payload} (key : Address)
    (found : heap.payload? dict = some (.dict entries))
    (present : heap.payload? address = some payload) :
    (heap.createEntry dict key entries).type address = heap.type address := by
  rw [(createEntry_replaces key found).2.type address]
  have made := (Crafted.newDefault heap ((heap.type dict).parameter 1)).survives
  exact made.type (lt_size_of_payload? present) (payload?_newDefault _ present)

/-- The value of the new entry. -/
theorem created_of_createEntry (key : Address) (found : heap.payload? dict = some (.dict entries)) :
    (heap.createEntry dict key entries).payload? heap.cells.size =
        some ((heap.type dict).parameter 1).initial ∧
      (heap.createEntry dict key entries).type heap.cells.size =
        ((heap.type dict).parameter 1).mutable := by
  have written := (createEntry_replaces key found).2
  have different : dict ≠ heap.cells.size := Nat.ne_of_lt (lt_size_of_payload? found)
  have made := get?_allocate_self heap ((heap.type dict).parameter 1).mutable
    ((heap.type dict).parameter 1).initial
  constructor
  · rw [written.spared different, newDefault_eq]
    exact payload?_of_get? made
  · rw [written.type, newDefault_eq, type]
    change (heap.allocate _ _).2.get? heap.cells.size = _ at made
    rw [made]

/-- An entry was added to a dict in which its key was missing. -/
structure Entered (keyed heap : Heap) (dict : Address) (entries : List (Address × Address))
    (key : Address) (tree : Tree) : Prop where
  sound : ∃ slots handles, keyed.Sound slots handles
  found : keyed.payload? dict = some (.dict entries)
  alive : ∃ object, keyed.get? key = some object
  missing : keyed.findEntry? entries key = none
  contents : keyed.tree key = tree
  spares : SurvivesBut dict keyed heap

/-- The key still differs from those before it, and has its contents. -/
theorem Entered.settled {value : Address} {tree : Tree}
    (entered : Entered keyed heap dict entries key tree) (sound : heap.Sound slots handles)
    (present : heap.payload? dict = some (.dict (entries ++ [(key, value)]))) :
    heap.tree key = tree ∧ heap.findEntry? entries key = none := by
  obtain ⟨slots', handles', sound'⟩ := entered.sound
  have alike : ∀ {child}, child ∈ (entries ++ [(key, value)]).map Prod.fst →
      (∃ object, keyed.get? child = some object) → Alike keyed heap child := by
    rintro child member ⟨object, alive⟩
    apply entered.spares.alike sound'.balanced sound.balanced sound.acyclic
    · exact ⟨_, present, mem_children_of_mem_keys member⟩
    · exact lt_size_of_get?_eq_some alive
  have alikeKey := alike (by simp) entered.alive
  have missing := entered.missing
  unfold findEntry? at missing ⊢
  rw [List.findIdx?_eq_none_iff] at missing ⊢
  refine ⟨(alikeKey.tree sound'.grounded sound.grounded).trans entered.contents, ?_⟩
  intro entry member
  have held : entry.1 ∈ keyed.stored := by
    apply mem_stored_iff_holds.mpr
    exact ⟨dict, _, entered.found, mem_children_of_mem_keys (List.mem_map_of_mem member)⟩
  have alikeEntry := @alike entry.1 (by simp [List.mem_map_of_mem member])
    (sound'.balanced.alive (by simp [held]))
  rw [alikeEntry.equals alikeKey]
  exact missing entry member

end

/-! ## Chains of entries -/

/-- The default of a type, perhaps with one entry that has been added, whose value is
in turn such a default. -/
inductive Sprout (heap : Heap) : StaticType → Address → List Tree → Prop where
  | default {type : StaticType} {address : Address} :
      heap.type address = type.mutable → heap.payload? address = some type.initial →
      Sprout heap type address []
  | entry {type : StaticType} {address key value : Address} {trees : List Tree} :
      heap.type address = type.mutable → type.initial = .dict [] →
      heap.payload? address = some (.dict [(key, value)]) →
      Sprout heap (type.mutable.parameter 1) value trees →
      Sprout heap type address (heap.tree key :: trees)

/-- A sprout that still grows: its last default, and how its entries were added. -/
inductive Shoot (heap : Heap) : StaticType → Address → List Tree → Address → Prop where
  | tip {type : StaticType} {address : Address} :
      heap.type address = type.mutable → heap.payload? address = some type.initial →
      Shoot heap type address [] address
  | entry {keyed : Heap} {type : StaticType} {address key value tip : Address} {tree : Tree}
      {trees : List Tree} :
      heap.type address = type.mutable → type.initial = .dict [] →
      heap.payload? address = some (.dict [(key, value)]) →
      Entered keyed heap address [] key tree → address < value → keyed.cells.size ≤ value →
      Shoot heap (type.mutable.parameter 1) value trees tip →
      Shoot heap type address (tree :: trees) tip

namespace Shoot

variable {type : StaticType} {tip : Address} {trees : List Tree}

theorem le (shoot : Shoot heap type address trees tip) : address ≤ tip := by
  induction shoot with
  | tip => exact le_rfl
  | entry _ _ _ _ older _ _ induction => exact (Nat.le_of_lt older).trans induction

theorem payload?_tip (shoot : Shoot heap type address trees tip) :
    ∃ last : StaticType, heap.type tip = last.mutable ∧ heap.payload? tip = some last.initial := by
  induction shoot with
  | tip types initial => exact ⟨_, types, initial⟩
  | entry _ _ _ _ _ _ _ induction => exact induction

theorem sprout (shoot : Shoot heap type address trees tip) (sound : heap.Sound slots handles) :
    heap.Sprout type address trees := by
  induction shoot with
  | tip types initial => exact .default types initial
  | entry types dicts present entered _ _ _ induction =>
      rw [← (entered.settled sound present).1]
      exact .entry types dicts present induction

theorem survives (shoot : Shoot before type address trees tip) (survives : Survives before after)
    (balanced : after.Balanced slots handles)
    (alive : ∃ object, after.get? address = some object) :
    Shoot after type address trees tip := by
  induction shoot with
  | tip types initial =>
      obtain ⟨object, alive⟩ := alive
      have found := payload?_of_get? alive
      have old := lt_size_of_payload? initial
      refine .tip ((survives.type old found).trans types) ?_
      rw [found, ← survives.payload old found, initial]
  | @entry keyed type address key value tip tree trees types dicts present entered older younger _
      induction =>
      obtain ⟨object, alive⟩ := alive
      have found := payload?_of_get? alive
      have old := lt_size_of_payload? present
      have same := (survives.payload old found).symm.trans present
      rw [same] at found
      refine .entry ((survives.type old (payload?_of_get? alive)).trans types) dicts found
        ⟨entered.sound, entered.found, entered.alive, entered.missing, entered.contents,
          entered.spares.survives survives⟩ older younger (induction ?_)
      apply balanced.alive
      have member : value ∈ (Payload.dict [(key, value)]).children := by simp [Payload.children]
      simp [mem_stored_iff_holds.mpr ⟨_, _, found, member⟩]

/-- An entry that is added at the tip, where the new tip is its value. -/
theorem grow {key : Address} (shoot : Shoot heap type address trees tip)
    (sound : heap.Sound slots handles) (empty : heap.payload? tip = some (.dict []))
    (alive : ∃ object, heap.get? key = some object) :
    Shoot (heap.createEntry tip key []) type address (trees ++ [heap.tree key])
      heap.cells.size := by
  have created := created_of_createEntry key empty
  induction shoot with
  | @tip type address types initial =>
      have entered : Entered heap (heap.createEntry address key []) address [] key
          (heap.tree key) :=
        ⟨⟨_, _, sound⟩, empty, alive, rfl, rfl, .createEntry empty⟩
      have small := lt_size_of_payload? empty
      have dicts := Option.some.inj (initial.symm.trans empty)
      rw [types] at created
      exact .entry ((type_createEntry key empty empty).trans types) dicts
        (payload?_createEntry key empty) entered small le_rfl (.tip created.2 created.1)
  | @entry keyed type address entryKey value tip tree trees types dicts present entered older younger
      shoot induction =>
      have different : tip ≠ address := by
        rintro rfl
        rw [empty] at present
        simp at present
      have changed : SurvivesBut tip _ (createEntry _ tip key []) := .createEntry empty
      have grown := entered.spares.trans_young changed (Or.inr (younger.trans shoot.le))
      exact .entry ((type_createEntry key empty present).trans types) dicts
        (payload?_createEntry_of_ne key empty different present)
        ⟨entered.sound, entered.found, entered.alive, entered.missing, entered.contents, grown⟩ older younger
        (induction empty created)

end Shoot

end Heap

end ScriptEngine
