import ScriptEngine.Proofs.Ownership.Equivalence
import ScriptEngine.Proofs.Ownership.Paths

/-!
# Access for reading and for writing

Where a key leads to a slot, both kinds of access find it and change nothing, and where it is
of no use both fail alike.  They differ for a key that a dict does not have: writing creates
one entry, which every key that is equal to it leads to from then on.  So keys that are
written one after another add as many entries as there are different ones that were missing.

A dict may be among what its own keys lead to.  Such a key is equal to none that does not lead
to the dict, before and after, so it does not matter that its contents change.
-/

namespace ScriptEngine

namespace Heap

variable {heap before after : Heap} {container dict key other address : Address}
  {entries : List (Address × Address)} {slots handles slots' handles' : Multiset Address}

/-! ## Comparisons beside a dict that grows -/

theorem reaches_of_path (path : Relation.ReflTransGen heap.Holds address dict) :
    heap.Reaches {address} dict := by
  induction path with
  | refl => exact .root (Multiset.mem_singleton_self address)
  | tail _ holds reaches => exact reaches.slot holds

theorem exists_counterpart {depth : Nat} {left right child : Address}
    (same : heap.equalWithin (depth + 1) left right = true) (different : left ≠ right)
    (holds : heap.Holds left child) :
    ∃ counterpart, heap.Holds right counterpart ∧
      heap.equalWithin depth child counterpart = true := by
  obtain ⟨payload, found, member⟩ := holds
  rw [equalWithin_succ, beq_eq_false_iff_ne.mpr different, Bool.false_or,
    agree_comm (heap.equalWithin_comm depth), found] at same
  cases found' : heap.payload? right with
  | none => simp [found', agree] at same
  | some payload' =>
      rw [found'] at same
      obtain ⟨counterpart, member', paired⟩ := agree_child same member
      rw [equalWithin_comm] at paired
      exact ⟨counterpart, ⟨payload', found', member'⟩, paired⟩

/-- On the way from an object to a dict, an equal object has something equal to the dict. -/
theorem exists_equal_of_path {depth : Nat}
    (path : Relation.ReflTransGen heap.Holds address dict) (apart : ¬ heap.Reaches {key} dict)
    (same : heap.equalWithin depth address key = true) :
    ∃ fewer ≤ depth, ∃ counterpart, ¬ heap.Reaches {counterpart} dict ∧
      heap.equalWithin fewer dict counterpart = true := by
  induction path using Relation.ReflTransGen.head_induction_on generalizing depth key with
  | refl => exact ⟨depth, le_rfl, key, apart, same⟩
  | @head holder child holds path induction =>
      have different : holder ≠ key := by
        rintro rfl
        exact apart (reaches_of_path (path.head holds))
      cases depth with
      | zero => exact absurd (beq_iff_eq.mp same) different
      | succ depth =>
          obtain ⟨counterpart, holds', same'⟩ := exists_counterpart same different holds
          obtain ⟨fewer, less, found⟩ :=
            induction (fun reaches => apart (reaches.child holds')) same'
          exact ⟨fewer, Nat.le_succ_of_le less, found⟩

/-- A key that leads back to its dict is equal to none that does not lead there. -/
theorem not_equals_of_reaches (holds : heap.Holds dict other) (reaches : heap.Reaches {other} dict)
    (apart : ¬ heap.Reaches {key} dict) : heap.equals other key = false := by
  have never : ∀ depth key, ¬ heap.Reaches {key} dict →
      heap.equalWithin depth other key = false := by
    intro depth
    induction depth using Nat.strong_induction_on with
    | h depth induction =>
        intro key apart
        rw [Bool.eq_false_iff]
        intro same
        obtain ⟨fewer, less, counterpart, away, equal⟩ :=
          exists_equal_of_path reaches.path apart same
        have different : dict ≠ counterpart := by
          rintro rfl
          exact away (.root (Multiset.mem_singleton_self dict))
        cases fewer with
        | zero => exact different (beq_iff_eq.mp equal)
        | succ fewer =>
            obtain ⟨child, holds', same'⟩ := exists_counterpart equal different holds
            rw [induction fewer less child fun reaches => away (reaches.child holds')] at same'
            cases same'
  exact never _ key apart

theorem Balanced.lt_size_of_holds {holder child : Address} (balanced : heap.Balanced slots handles)
    (holds : heap.Holds holder child) : child < heap.cells.size := by
  obtain ⟨payload, found⟩ := Option.ne_none_iff_exists'.mp (balanced.closed holds)
  exact lt_size_of_payload? found

namespace SurvivesBut

variable (but : SurvivesBut dict before after) (balanced : before.Balanced slots handles)
  (balanced' : after.Balanced slots' handles')

include but balanced balanced' in
/-- What did not lead to the dict is as it was. -/
theorem alike_of_apart (old : key < before.cells.size) (alive : after.payload? key ≠ none)
    (apart : ¬ before.Reaches {key} dict) : Alike before after key := by
  refine Alike.of_alive balanced balanced' old alive ?_
  intro address reaches small present
  have different : dict ≠ address := by
    rintro rfl
    exact apart reaches
  obtain ⟨payload, found⟩ := Option.ne_none_iff_exists'.mp present
  exact ⟨found.trans (but.payload small different found).symm, but.type small found⟩

include but balanced balanced' in
/-- What led to the dict still does if it is there. -/
theorem reaches_dict (old : address < before.cells.size) (alive : after.payload? address ≠ none)
    (reaches : before.Reaches {address} dict) : after.Reaches {address} dict := by
  induction reaches.path using Relation.ReflTransGen.head_induction_on with
  | refl => exact .root (Multiset.mem_singleton_self dict)
  | @head holder child holds path induction =>
      by_cases different : dict = holder
      · rw [different]
        exact .root (Multiset.mem_singleton_self holder)
      · have small := balanced.lt_size_of_holds holds
        obtain ⟨payload, found, member⟩ := holds
        obtain ⟨payload', found'⟩ := Option.ne_none_iff_exists'.mp alive
        cases found.symm.trans (but.payload old different found')
        have holds' : after.Holds holder child := ⟨payload, found', member⟩
        exact (induction small (balanced'.closed holds') (reaches_of_path path)).child holds'

include but balanced balanced' in
/-- A key of the dict compares as before with what did not lead to the dict. -/
theorem equals_key (old : key < before.cells.size) (alive : after.payload? key ≠ none)
    (apart : ¬ before.Reaches {key} dict) (member : other ∈ before.keys dict)
    (still : other ∈ after.keys dict) : after.equals other key = before.equals other key := by
  have alike := but.alike_of_apart balanced balanced' old alive apart
  have holds := holds_of_mem_keys member
  have holds' := holds_of_mem_keys still
  have small := balanced.lt_size_of_holds holds
  have alive' := balanced'.closed holds'
  by_cases reaches : before.Reaches {other} dict
  · rw [not_equals_of_reaches holds reaches apart, not_equals_of_reaches holds'
      (but.reaches_dict balanced balanced' small alive' reaches) (alike.reaches.not.mpr apart)]
  · exact (but.alike_of_apart balanced balanced' small alive' reaches).equals alike

include but balanced balanced' in
/-- More entries do not matter to where a key is among those that were there. -/
theorem findEntry?_eq (old : key < before.cells.size) (alive : after.payload? key ≠ none)
    (apart : ¬ before.Reaches {key} dict) {added : List (Address × Address)}
    (found : before.payload? dict = some (.dict entries))
    (found' : after.payload? dict = some (.dict (entries ++ added))) :
    after.findEntry? entries key = before.findEntry? entries key := by
  rw [findEntry?_eq_keys, findEntry?_eq_keys]
  refine findIdx?_congr fun other member => ?_
  apply but.equals_key balanced balanced' old alive apart
  · rwa [keys_of_payload? found]
  · rw [keys_of_payload? found', List.map_append]
    exact List.mem_append_left _ member

end SurvivesBut

/-! ## Two kinds of access -/

theorem not_keyNotFound_of_vectorPosition {payload : Payload} {length : Nat} {cause : Cause}
    (failed : vectorPosition payload length = .error cause) (text : String) :
    cause ≠ .keyNotFound text := by
  have checked : ∀ {number : Int},
      (if 0 ≤ number ∧ number < length then Except.ok number.toNat
        else Except.error (Cause.indexOutOfRange (toString number) length)) = .error cause →
      cause ≠ .keyNotFound text := by
    intro number checks
    split at checks
    · simp at checks
    · cases checks
      exact Cause.noConfusion
  unfold vectorPosition at failed
  split at failed
  · exact checked failed
  · exact checked failed
  · cases failed
    exact Cause.noConfusion

theorem not_keyNotFound_of_spot {cause : Cause} (failed : heap.spot container key = .error cause)
    (text : String) : cause ≠ .keyNotFound text := by
  unfold spot at failed
  split at failed
  · split at failed
    · rename_i elements _ _ payload found
      cases position : vectorPosition payload elements.length with
      | ok index => simp [position, Except.map] at failed
      | error other =>
          simp only [position, Except.map, Except.error.injEq] at failed
          exact failed ▸ not_keyNotFound_of_vectorPosition position text
    · cases failed
      exact Cause.noConfusion
  · split at failed <;> simp at failed
  · cases failed
    exact Cause.noConfusion

/-- A dict has got an entry for a key, with the default of its value type, and nothing
else is different. -/
structure Gains (before : Heap) (dict key : Address) (entries : List (Address × Address))
    (after : Heap) : Prop where
  found : before.payload? dict = some (.dict entries)
  payload : after.payload? dict = some (.dict (entries ++ [(key, before.cells.size)]))
  value : after.payload? before.cells.size = some ((before.type dict).parameter 1).initial
  mutable : after.type before.cells.size = ((before.type dict).parameter 1).mutable
  spared : ∀ {address payload}, dict ≠ address → before.payload? address = some payload →
    after.payload? address = some payload
  type : ∀ {address payload}, before.payload? address = some payload →
    after.type address = before.type address

theorem gains_of_createEntry (found : heap.payload? dict = some (.dict entries)) :
    heap.Gains dict key entries (heap.createEntry dict key entries) where
  found := found
  payload := payload?_createEntry key found
  value := (created_of_createEntry key found).1
  mutable := (created_of_createEntry key found).2
  spared := payload?_createEntry_of_ne key found
  type := type_createEntry key found

/-- Every key that is equal to that of the last entry leads to it. -/
theorem findEntry?_last (value : Address) (missing : heap.findEntry? entries key = none)
    (same : heap.equals other key = true) :
    heap.findEntry? (entries ++ [(key, value)]) other = some entries.length := by
  have before : heap.findEntry? entries other = none := by
    rw [ Heap.findEntry?, List.findIdx?_eq_none_iff] at missing ⊢
    intro entry member
    rw [equals_congr same, missing entry member]
  have last : heap.equals key other = true := (heap.equals_comm key other).trans same
  rw [ Heap.findEntry?] at before ⊢
  simp [List.findIdx?_append, before, last]

section

variable (found : heap.payload? dict = some (.dict entries))
  (missing : heap.findEntry? entries key = none)

include found missing

theorem locate_of_missing :
    heap.locate dict key .write =
      (.ok (.entry dict entries.length), (heap.createEntry dict key entries).retain dict) := by
  simp only [locate, spot, found, missing, Heap.entries]

/-- The new entry is found from then on. -/
theorem locate_again (balanced : heap.Balanced slots (key ::ₘ handles))
    (apart : ¬ heap.Reaches {key} dict)
    (survives : Survives ((heap.createEntry dict key entries).retain dict) after)
    (balanced' : after.Balanced slots' (other ::ₘ handles')) (held : dict ∈ slots' + handles')
    (same : after.equals other key = true) (access : Access) :
    after.locate dict other access =
      (.ok (.entry dict entries.length), (after.release other).retain dict) := by
  have but := ((SurvivesBut.createEntry found).survives
    (Remains.retain _ dict).survives).survives survives
  have small : dict < ((heap.createEntry dict key entries).retain dict).cells.size :=
    (lt_size_of_payload? found).trans_le ((SurvivesBut.createEntry found).survives
      (Remains.retain _ dict).survives).size
  have present : after.payload? dict = some (.dict (entries ++ [(key, heap.cells.size)])) := by
    rw [survives.payload?_eq small (balanced'.payload?_ne_none (mem_held_cons held other)),
      payload?_retain, payload?_createEntry key found]
  have alive := balanced'.closed
    ⟨_, present, mem_children_of_mem_keys (by simp : key ∈ (entries ++ [(key, _)]).map Prod.fst)⟩
  have still := but.findEntry?_eq balanced balanced' (balanced.lt_size (by simp)) alive apart found
    present
  exact locate_of_present present (findEntry?_last _ (still.trans missing) same) access

end

/-! ## One access after another -/

/-- Locate keys for writing, one after another, and give each place back. -/
def locateEach (heap : Heap) (container : Address) : List Address → Heap
  | [] => heap
  | key :: keys =>
      match heap.locate container key .write with
      | (.error _, heap) => heap.locateEach container keys
      | (.ok place, heap) => (heap.releaseAll place.handles).locateEach container keys

/-- The keys that are not in a dict. -/
def missing (heap : Heap) (entries : List (Address × Address)) (keys : List Address) :
    List Address :=
  keys.filter fun key => (heap.findEntry? entries key).isNone

/-- Objects that are equal are one. -/
def sameness (heap : Heap) : Setoid Address where
  r left right := heap.equals left right = true
  iseqv := ⟨heap.equals_self, fun {left right} same => (heap.equals_comm right left).trans same,
    equals_trans⟩

instance (heap : Heap) : DecidableEq (Quotient heap.sameness) :=
  @Quotient.decidableEq _ heap.sameness fun left right =>
    inferInstanceAs (Decidable (heap.equals left right = true))

/-- How many objects there are among some, equal ones being one. -/
def distinctCount (heap : Heap) (keys : List Address) : Nat :=
  (keys.map (Quotient.mk heap.sameness)).toFinset.card

theorem length_firsts (heap : Heap) (keys : List Address) :
    (heap.firsts keys).length = heap.distinctCount keys := by
  have different : ((heap.firsts keys).map (Quotient.mk heap.sameness)).Nodup := by
    refine List.pairwise_map.mpr ((heap.firsts_pairwise keys).imp fun {first second} apart same => ?_)
    have equal : heap.equals first second = true := Quotient.exact same
    rw [apart] at equal
    cases equal
  have whole : (keys.map (Quotient.mk heap.sameness)).toFinset =
      ((heap.firsts keys).map (Quotient.mk heap.sameness)).toFinset := by
    ext kind
    simp only [List.mem_toFinset, List.mem_map]
    constructor
    · rintro ⟨key, member, rfl⟩
      obtain ⟨first, inside, same⟩ := @exists_mem_firsts heap _ _ member
      exact ⟨first, inside, Quotient.sound same⟩
    · rintro ⟨first, inside, rfl⟩
      exact ⟨first, heap.firsts_subset keys inside, rfl⟩
  rw [distinctCount, whole, List.toFinset_card_of_nodup different, List.length_map]

/-- An object of a heap that does not lead to a dict. -/
def Outside (heap : Heap) (dict key : Address) : Prop :=
  key < heap.cells.size ∧ ¬ heap.Reaches {key} dict

/-- What has become of a heap once keys have been located in a dict. -/
structure Accessed (start : Heap) (dict : Address) (entries : List (Address × Address))
    (keys : List Address) (heap : Heap) : Prop where
  but : SurvivesBut dict start heap
  outside : ∀ key ∈ keys, start.Outside dict key
  payload : ∃ added, heap.payload? dict = some (.dict (entries ++ added)) ∧
    added.map Prod.fst = start.firsts (start.missing entries keys)

namespace Accessed

variable {start : Heap} {keys : List Address} {added : List (Address × Address)}
  (accessed : start.Accessed dict entries keys heap) (balanced : start.Balanced slots handles)
  (found : start.payload? dict = some (.dict entries))

include accessed balanced found in
/-- A key is there if it was, or if an equal one has been entered. -/
theorem findEntry?_eq_none_iff (balanced' : heap.Balanced slots' handles')
    (found' : heap.payload? dict = some (.dict (entries ++ added)))
    (entered : added.map Prod.fst = start.firsts (start.missing entries keys))
    (alive : heap.payload? key ≠ none) (outside : start.Outside dict key) :
    heap.findEntry? (entries ++ added) key = none ↔
      start.findEntry? entries key = none ∧
        (start.missing entries keys).any (start.equals · key) = false := by
  have old := accessed.but.findEntry?_eq balanced balanced' outside.1 alive outside.2 found found'
  have new : ∀ other ∈ added.map Prod.fst, heap.equals other key = start.equals other key := by
    intro other member
    have holds : heap.Holds dict other := ⟨_, found', mem_children_of_mem_keys
      ((List.map_append (f := Prod.fst)).symm ▸ List.mem_append_right _ member)⟩
    rw [entered] at member
    have apart := accessed.outside other
      (List.mem_of_mem_filter (start.firsts_subset _ member))
    exact (accessed.but.alike_of_apart balanced balanced' apart.1 (balanced'.closed holds)
      apart.2).equals (accessed.but.alike_of_apart balanced balanced' outside.1 alive outside.2)
  rw [← old, ← start.any_firsts, ← entered, findEntry?_eq_keys, findEntry?_eq_keys,
    List.findIdx?_eq_none_iff, List.findIdx?_eq_none_iff, List.any_eq_false, List.map_append]
  simp only [List.mem_append, or_imp, forall_and, Bool.not_eq_true]
  exact and_congr_right fun _ => forall₂_congr fun other member => by rw [new other member]

theorem missing_append (entries : List (Address × Address)) (keys : List Address) (key : Address) :
    start.missing entries (keys ++ [key]) =
      start.missing entries keys ++
        if start.findEntry? entries key = none then [key] else [] := by
  rw [missing, List.filter_append]
  cases absent : start.findEntry? entries key <;> simp [missing, absent]

include accessed in
/-- A handle on the dict comes and goes. -/
theorem settle (balanced : heap.Balanced slots handles) (held : dict ∈ slots + handles) :
    ((heap.retain dict).releaseAll [dict]).Balanced slots handles ∧
      start.Accessed dict entries keys ((heap.retain dict).releaseAll [dict]) := by
  have shared : (heap.retain dict).Balanced slots ([dict] + handles) :=
    balanced.retain (mem_of_held held heap)
  have settled := shared.releaseAll
  have remains := (Remains.retain heap dict).trans (Remains.releaseAll (heap.retain dict) [dict])
  obtain ⟨added, present, entered⟩ := accessed.payload
  have still : ((heap.retain dict).releaseAll [dict]).payload? dict = heap.payload? dict :=
    remains.survives.payload?_eq (lt_size_of_payload? present) (settled.payload?_ne_none held)
  exact ⟨settled, accessed.but.survives remains.survives, accessed.outside, added,
    still.trans present, entered⟩

include accessed balanced found in
theorem step (balanced' : heap.Balanced slots' (key ::ₘ handles')) (held : dict ∈ slots' + handles')
    (outside : start.Outside dict key) :
    ∃ place after, heap.locate dict key .write = (.ok place, after) ∧
      (after.releaseAll place.handles).Balanced slots' handles' ∧
        start.Accessed dict entries (keys ++ [key]) (after.releaseAll place.handles) := by
  obtain ⟨added, present, entered⟩ := accessed.payload
  have alive : heap.payload? key ≠ none := balanced'.payload?_ne_none (by simp)
  have iff := accessed.findEntry?_eq_none_iff balanced found balanced' present entered alive outside
  have among : ∀ other ∈ keys ++ [key], start.Outside dict other := by
    intro other member
    rcases List.mem_append.mp member with member | member
    · exact accessed.outside other member
    · rwa [List.mem_singleton.mp member]
  cases there : heap.findEntry? (entries ++ added) key with
  | some position =>
      have released : (heap.release key).Balanced slots' handles' :=
        balanced'.release
      have kept : (heap.release key).payload? dict = some (.dict (entries ++ added)) := by
        rw [(Remains.release heap key).survives.payload?_eq (lt_size_of_payload? present)
          (released.payload?_ne_none held), present]
      have same : start.firsts (start.missing entries (keys ++ [key])) =
          start.firsts (start.missing entries keys) := by
        rw [missing_append]
        split
        · rename_i absent
          have equal : (start.missing entries keys).any (start.equals · key) = true := by
            rw [there, absent] at iff
            simpa using iff
          rw [firsts_append, equal, if_pos rfl, List.append_nil]
        · rw [List.append_nil]
      have next : start.Accessed dict entries (keys ++ [key]) (heap.release key) :=
        ⟨accessed.but.survives (Remains.release heap key).survives, among, added, kept,
          same ▸ entered⟩
      exact ⟨_, _, locate_of_present present there .write, next.settle released held⟩
  | none =>
      obtain ⟨absent, new⟩ := iff.mp there
      have next : start.Accessed dict entries (keys ++ [key])
          (heap.createEntry dict key (entries ++ added)) := by
        refine ⟨accessed.but.trans (.createEntry present), among,
          added ++ [(key, heap.cells.size)], ?_, ?_⟩
        · rw [payload?_createEntry key present, List.append_assoc]
        · rw [missing_append, if_pos absent, firsts_append, new, List.map_append, entered]
          rfl
      exact ⟨_, _, locate_of_missing present there,
        next.settle (balanced'.createEntry present) held⟩

end Accessed

theorem Accessed.locateEach {start : Heap} {keys more : List Address}
    (accessed : start.Accessed dict entries keys heap) (balanced : start.Balanced slots handles)
    (found : start.payload? dict = some (.dict entries))
    (balanced' : heap.Balanced slots' (more + handles')) (held : dict ∈ slots' + handles')
    (outside : ∀ key ∈ more, start.Outside dict key) :
    start.Accessed dict entries (keys ++ more) (heap.locateEach dict more) := by
  induction more generalizing heap keys with
  | nil => rwa [List.append_nil]
  | cons key more induction =>
      rw [← Multiset.cons_coe, Multiset.cons_add] at balanced'
      obtain ⟨place, after, located, settled, next⟩ := accessed.step balanced found balanced'
        (by rw [add_left_comm]; exact Multiset.mem_add.mpr (Or.inr held))
        (outside key List.mem_cons_self)
      rw [Heap.locateEach, located, List.append_cons]
      exact induction next settled fun other member => outside other (List.mem_cons_of_mem _ member)

/-! ## What accesses come to -/

/-- Both kinds of access find the place, and nothing is entered. -/
def Finds (heap : Heap) (container key : Address) (place : Place) : Prop :=
  ∀ access, heap.locate container key access = (.ok place, (heap.release key).retain container)

/-- Both kinds of access fail, and nothing is entered. -/
def Refuses (heap : Heap) (container key : Address) (cause : Cause) : Prop :=
  ∀ access, heap.locate container key access = (.error cause, heap.release key)

theorem finds_of_locate_read {place : Place}
    (located : (heap.locate container key .read).1 = .ok place) : heap.Finds container key place := by
  cases found : heap.spot container key with
  | error cause => simp [locate, found] at located
  | ok spot =>
      cases spot with
      | absent => simp [locate, found] at located
      | element position =>
          simp only [locate, found, Except.ok.injEq] at located
          exact fun access => by simp only [locate, found, located]
      | entry position =>
          simp only [locate, found, Except.ok.injEq] at located
          exact fun access => by simp only [locate, found, located]

theorem spot_of_locate_read {cause : Cause}
    (located : (heap.locate container key .read).1 = .error cause) :
    heap.spot container key = .error cause ∨
      heap.spot container key = .ok .absent ∧ cause = .keyNotFound (heap.render true key) := by
  cases found : heap.spot container key with
  | error other =>
      simp only [locate, found, Except.error.injEq] at located
      exact Or.inl (located ▸ rfl)
  | ok spot =>
      cases spot with
      | absent =>
          simp only [locate, found, Except.error.injEq] at located
          exact Or.inr ⟨rfl, located.symm⟩
      | element position => simp [locate, found] at located
      | entry position => simp [locate, found] at located

theorem refuses_of_spot {cause : Cause} (failed : heap.spot container key = .error cause) :
    heap.Refuses container key cause :=
  fun access => by simp only [locate, failed]

theorem Remains.locate_read (heap : Heap) (container key : Address) :
    Remains heap (heap.locate container key .read).2 := by
  have found := (Remains.release heap key).trans (Remains.retain (heap.release key) container)
  unfold locate
  split
  · exact Remains.release heap key
  · exact found
  · exact found
  · exact Remains.release heap key

/-- Reading and writing find the same and fail alike, except for a key that a dict does not
have.  Then writing adds one entry, which from then on is found with any equal key, and of
keys one after another as many are added as there are different ones that were missing. -/
theorem accesses_agree {keys : List Address} (balanced : heap.Balanced slots (↑(key :: keys) + handles))
    (held : container ∈ slots + handles)
    (apart : ∀ other ∈ key :: keys, ¬ heap.Reaches {other} container) :
    Remains heap (heap.locate container key .read).2 ∧
    (∀ {place}, (heap.locate container key .read).1 = .ok place → heap.Finds container key place) ∧
    (∀ {cause}, (heap.locate container key .read).1 = .error cause →
      (∀ text, cause ≠ .keyNotFound text) → heap.Refuses container key cause) ∧
    (∀ {text}, (heap.locate container key .read).1 = .error (.keyNotFound text) →
      ∃ entries grown, heap.Gains container key entries grown ∧
        heap.locate container key .write =
          (.ok (.entry container entries.length), grown.retain container) ∧
        ∀ {later other slots' handles'}, Survives (grown.retain container) later →
          later.Balanced slots' (other ::ₘ handles') → container ∈ slots' + handles' →
          later.equals other key = true →
            later.Finds container other (.entry container entries.length)) ∧
    ∀ {entries}, heap.payload? container = some (.dict entries) →
      ∃ added,
        (heap.locateEach container (key :: keys)).payload? container =
          some (.dict (entries ++ added)) ∧
        added.map Prod.fst = heap.firsts (heap.missing entries (key :: keys)) ∧
        added.length = heap.distinctCount (heap.missing entries (key :: keys)) := by
  have single : heap.Balanced slots (key ::ₘ (↑keys + handles)) := by
    rwa [← Multiset.cons_coe, Multiset.cons_add] at balanced
  have outside : ∀ other ∈ key :: keys, heap.Outside container other := fun other member =>
    ⟨balanced.lt_size (mem_of_held (by simp [List.mem_cons.mp member]) heap), apart other member⟩
  refine ⟨Remains.locate_read heap container key, finds_of_locate_read, ?_, ?_, ?_⟩
  · intro cause located proper
    rcases spot_of_locate_read located with failed | ⟨_, lacking⟩
    · exact refuses_of_spot failed
    · exact absurd lacking (proper _)
  · intro text located
    rcases spot_of_locate_read located with failed | ⟨absent, _⟩
    · exact absurd rfl (not_keyNotFound_of_spot failed text)
    · obtain ⟨found, missing⟩ := dict_of_absent absent
      refine ⟨_, _, gains_of_createEntry found, locate_of_missing found missing, ?_⟩
      intro later other slots' handles' survives balanced' held' same access
      exact locate_again found missing single (apart key List.mem_cons_self) survives balanced'
        held' same access
  · intro entries found
    have start : heap.Accessed container entries [] heap :=
      ⟨(Survives.refl heap).but container, by simp, [], by simpa using found, rfl⟩
    obtain ⟨added, present, entered⟩ :=
      (start.locateEach balanced found balanced held outside).payload
    refine ⟨added, present, entered, ?_⟩
    rw [← length_firsts, ← List.length_map (f := Prod.fst), entered]
    rfl

/-- A dict with the key 1, and the keys 2, 2 and 1 once more. -/
def stocked : Heap :=
  let heap := ((({} : Heap).newScalar (.int 1)).2.newScalar (.int 5)).2
  let heap := (heap.newDict .int .int [(0, 1)]).2
  (((heap.newScalar (.int 2)).2.newScalar (.int 2)).2.newScalar (.int 1)).2

theorem stocked_balanced : stocked.Balanced 0 {5, 4, 3, 2} := by
  have crafting := Balanced.crafting 0 0
  have blank : ({} : Heap).Balanced (0 + 0) (0 + 0) := (Ledger.Balanced.blank none).heap
  have order : ((Payload.dict [(0, 1)]).children + 0 + 0 : Multiset Address) = {1, 0} := by decide
  have pair : ((({} : Heap).newScalar (.int 1)).2.newScalar (.int 5)).2.Balanced (0 + 0) {1, 0} :=
    crafting.newScalar (crafting.newScalar blank (.int 1)) (.int 5)
  rw [← order] at pair
  have dict := crafting.newDict pair .int .int
  exact crafting.newScalar (crafting.newScalar (crafting.newScalar dict (.int 2)) (.int 2)) (.int 1)

/-- The key 2 is entered once, and found again with the equal one. -/
theorem accesses_agree_stocked :
    ∃ grown added, (stocked.locate 2 3 .read).1 = .error (.keyNotFound "2") ∧
      stocked.locate 2 3 .write = (.ok (.entry 2 1), grown) ∧
      grown.Finds 2 4 (.entry 2 1) ∧
      (stocked.locateEach 2 [3, 4, 5]).payload? 2 = some (.dict ([(0, 1)] ++ added)) ∧
      added.map Prod.fst = [3] := by
  have balanced : stocked.Balanced 0 (Multiset.ofList [3, 4, 5] + {2}) := by
    have order : (Multiset.ofList [3, 4, 5] + {2} : Multiset Address) = {5, 4, 3, 2} := by decide
    rw [order]
    exact stocked_balanced
  have scalars : ∀ other ∈ [3, 4, 5], (stocked.scalar? other).isSome := by decide
  have apart : ∀ other ∈ [3, 4, 5], ¬ stocked.Reaches {other} 2 := by
    intro other member reaches
    obtain ⟨value, scalar⟩ := Option.isSome_iff_exists.mp (scalars other member)
    rw [← reaches.eq_of_not_isContainer (not_isContainer_of_scalar? scalar)] at member
    simp at member
  have laws := accesses_agree balanced (by decide) apart
  have missing : (stocked.locate 2 3 .read).1 = .error (.keyNotFound "2") := by decide +kernel
  obtain ⟨entries, grown, gains, written, finds⟩ := laws.2.2.2.1 missing
  have found : stocked.payload? 2 = some (.dict [(0, 1)]) := by decide
  obtain ⟨added, payload, entered, _⟩ := laws.2.2.2.2 found
  cases found.symm.trans gains.found
  have created : grown.retain 2 = (stocked.createEntry 2 3 [(0, 1)]).retain 2 := by
    rw [locate_of_missing found (by decide +kernel)] at written
    exact (congrArg Prod.snd written).symm
  have single : stocked.Balanced 0 (3 ::ₘ 4 ::ₘ {5, 2}) := balanced
  have balanced' : (grown.retain 2).Balanced 0 (4 ::ₘ {2, 5, 2}) := by
    rw [created, Multiset.insert_eq_cons, Multiset.cons_swap]
    exact (single.createEntry found).retain (by simp)
  refine ⟨_, added, missing, written, finds (Survives.refl _) balanced' (by decide) ?_, payload, ?_⟩
  · rw [created]
    decide +kernel
  · rw [entered]
    decide +kernel

end Heap

end ScriptEngine
