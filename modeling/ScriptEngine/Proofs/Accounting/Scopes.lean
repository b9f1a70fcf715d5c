import Mathlib.Algebra.Order.Group.Multiset
import Mathlib.Order.Bounds.Basic
import ScriptEngine.Storage.Scopes

/-!
# The slots of scopes

Every binding is a slot.  The objects bound in a stack of scopes are counted
once for each binding, over all frames; a name has one binding in a frame at
most, so binding it again exchanges one object for another.
-/

namespace ScriptEngine

namespace ScopeFrame

/-- No name is bound twice. -/
def Distinct (frame : ScopeFrame) : Prop :=
  (frame.bindings.map Prod.fst).Nodup

variable {frame : ScopeFrame} {name : Name} {value : Address}

theorem lookup_eq_none_iff {bindings : List (Name × Address)} :
    bindings.lookup name = none ↔ name ∉ bindings.map Prod.fst := by
  rw [List.lookup_eq_none_iff]
  simp only [List.mem_map, Prod.exists, exists_and_right, exists_eq_right, not_exists,
    Prod.forall, bne_iff_ne, ne_eq]
  constructor
  · intro absent address member
    exact absent name address member rfl
  · rintro absent other address member rfl
    exact absent address member

theorem mem_values_of_get? (found : frame.get? name = some value) :
    value ∈ frame.values := by
  obtain ⟨before, after, split, -⟩ := List.lookup_eq_some_iff.mp found
  simp [values, split]

theorem put_of_unbound (unbound : frame.get? name = none) (value : Address) :
    frame.put name value = { frame with bindings := (name, value) :: frame.bindings } := by
  simp [put, binds, unbound]

theorem put_of_bound {previous : Address} (bound : frame.get? name = some previous)
    (value : Address) :
    frame.put name value =
      { frame with
        bindings := frame.bindings.map fun binding =>
          if binding.1 == name then (name, value) else binding } := by
  simp [put, binds, bound]

theorem Distinct.put (distinct : frame.Distinct) (name : Name) (value : Address) :
    (frame.put name value).Distinct := by
  cases bound : frame.get? name with
  | none =>
      rw [put_of_unbound bound]
      have fresh := lookup_eq_none_iff.mp bound
      exact List.nodup_cons.mpr ⟨fresh, distinct⟩
  | some previous =>
      rw [put_of_bound bound]
      have names : (frame.bindings.map fun binding =>
          if binding.1 == name then (name, value) else binding).map Prod.fst =
            frame.bindings.map Prod.fst := by
        rw [List.map_map]
        apply List.map_congr_left
        intro binding _
        simp only [Function.comp_apply, beq_iff_eq]
        split
        · rename_i same
          exact same.symm
        · rfl
      rw [ScopeFrame.Distinct, names]
      exact distinct

theorem values_put_of_unbound (unbound : frame.get? name = none) (value : Address) :
    (frame.put name value).values = value :: frame.values := by
  simp [put_of_unbound unbound, values]

/-- The bindings with the object of one name exchanged. -/
private def rebound (name : Name) (value : Address) (bindings : List (Name × Address)) :
    List (Name × Address) :=
  bindings.map fun binding => if binding.1 == name then (name, value) else binding

private theorem rebound_of_absent {bindings : List (Name × Address)}
    (absent : name ∉ bindings.map Prod.fst) (value : Address) : rebound name value bindings = bindings := by
  induction bindings with
  | nil => rfl
  | cons first others induction =>
      simp only [List.map_cons, List.mem_cons, not_or] at absent
      have rest := induction absent.2
      have different : (first.1 == name) = false := beq_eq_false_iff_ne.mpr (Ne.symm absent.1)
      simp only [rebound, List.map_cons, different] at rest ⊢
      rw [rest]
      rfl

private theorem values_rebound {bindings : List (Name × Address)} {previous : Address}
    (distinct : (bindings.map Prod.fst).Nodup)
    (bound : bindings.lookup name = some previous) :
    previous ::ₘ ((rebound name value bindings).map Prod.snd : Multiset Address) =
      value ::ₘ (bindings.map Prod.snd : Multiset Address) := by
  induction bindings with
  | nil => simp at bound
  | cons first others induction =>
      obtain ⟨firstName, firstValue⟩ := first
      simp only [List.map_cons, List.nodup_cons] at distinct
      rw [List.lookup_cons] at bound
      by_cases same : firstName = name
      · subst same
        simp only [beq_self_eq_true, Option.some.injEq] at bound
        subst bound
        have rest := rebound_of_absent distinct.1 value
        simp only [rebound, List.map_cons, beq_self_eq_true, if_true,
          ← Multiset.cons_coe] at rest ⊢
        rw [rest]
        exact Multiset.cons_swap _ _ _
      · have forward : (firstName == name) = false := beq_eq_false_iff_ne.mpr same
        have backward : (name == firstName) = false := beq_eq_false_iff_ne.mpr (Ne.symm same)
        simp only [backward] at bound
        have rest := induction distinct.2 bound
        simp only [rebound, List.map_cons, forward, ← Multiset.cons_coe] at rest ⊢
        rw [Multiset.cons_swap, Multiset.cons_swap value]
        exact congrArg _ rest

/-- Binding a bound name again exchanges the two objects. -/
theorem values_put_of_bound {previous : Address} (distinct : frame.Distinct)
    (bound : frame.get? name = some previous) (value : Address) :
    previous ::ₘ ((frame.put name value).values : Multiset Address) =
      value ::ₘ (frame.values : Multiset Address) := by
  rw [put_of_bound bound]
  exact values_rebound distinct bound

/-- Binding a name exchanges what it was bound to, if there is something. -/
theorem Distinct.values_exchanged (distinct : frame.Distinct) (name : Name) (value : Address) :
    ((frame.get? name).toList : Multiset Address) + (frame.put name value).values =
      value ::ₘ (frame.values : Multiset Address) := by
  cases bound : frame.get? name with
  | none => simp [values_put_of_unbound bound]
  | some previous => simpa using values_put_of_bound distinct bound value

private theorem lookup_rebound (name : Name) (value : Address)
    (bindings : List (Name × Address)) (other : Name) :
    (rebound name value bindings).lookup other =
      if other = name then (bindings.lookup name).map fun _ => value
      else bindings.lookup other := by
  induction bindings with
  | nil => simp [rebound]
  | cons first others induction =>
      obtain ⟨firstName, firstValue⟩ := first
      have head : rebound name value ((firstName, firstValue) :: others) =
          (if firstName = name then (name, value) else (firstName, firstValue)) ::
            rebound name value others := by
        simp [rebound]
      rw [head]
      by_cases same : firstName = name
      · subst same
        by_cases asked : other = firstName
        · simp [asked]
        · have skip : (other == firstName) = false := beq_eq_false_iff_ne.mpr asked
          rw [if_pos rfl, List.lookup_cons, skip, induction]
          simp [asked, List.lookup_cons, skip]
      · have backward : (name == firstName) = false := beq_eq_false_iff_ne.mpr (Ne.symm same)
        rw [if_neg same, List.lookup_cons, List.lookup_cons, List.lookup_cons, backward]
        by_cases asked : other = name
        · subst asked
          simp [backward, induction]
        · simp [induction, asked]

theorem get?_put (frame : ScopeFrame) (name other : Name) (value : Address) :
    (frame.put name value).get? other =
      if other = name then some value else frame.get? other := by
  cases bound : frame.get? name with
  | none =>
      rw [put_of_unbound bound]
      simp only [get?, List.lookup_cons]
      by_cases same : other = name
      · simp [same]
      · simp [same, beq_eq_false_iff_ne.mpr same]
  | some previous =>
      rw [put_of_bound bound]
      have looked := lookup_rebound name value frame.bindings other
      have stored : frame.bindings.lookup name = some previous := bound
      rw [stored] at looked
      exact looked

@[simp] theorem skipsRest_put (frame : ScopeFrame) (name : Name) (value : Address) :
    (frame.put name value).skipsRest = frame.skipsRest := by
  unfold put
  split
  · rfl
  · rfl

theorem mem_values_put {root : Address} (member : root ∈ (frame.put name value).values) :
    root = value ∨ root ∈ frame.values := by
  unfold put at member
  split at member
  · simp only [values, List.map_map, List.mem_map] at member ⊢
    obtain ⟨binding, inside, rfl⟩ := member
    simp only [Function.comp_apply]
    split
    · exact Or.inl rfl
    · exact Or.inr ⟨binding, inside, rfl⟩
  · simpa [values] using member

end ScopeFrame

namespace Scopes

/-- All frames, the root first. -/
def frames (scopes : Scopes) : List ScopeFrame :=
  scopes.root :: scopes.nested.toList

/-- The objects that bindings hold, once for each binding. -/
def bound (scopes : Scopes) : Multiset Address :=
  scopes.frames.flatMap ScopeFrame.values

def Distinct (scopes : Scopes) : Prop :=
  ∀ frame ∈ scopes.frames, frame.Distinct

variable {scopes : Scopes}

theorem frame?_eq (scopes : Scopes) (position : Nat) :
    scopes.frame? position = scopes.frames[position]? := by
  cases position with
  | zero => rfl
  | succ position => simp [frame?, frames]

theorem frames_modifyFrame (scopes : Scopes) (position : Nat)
    (change : ScopeFrame → ScopeFrame) :
    (scopes.modifyFrame position change).frames = scopes.frames.modify position change := by
  cases position with
  | zero => rfl
  | succ position => simp [modifyFrame, frames]

theorem get?_eq_some_iff {position : Nat} {name : Name} {value : Address} :
    scopes.get? position name = some value ↔
      ∃ frame, scopes.frames[position]? = some frame ∧ frame.get? name = some value := by
  rw [get?, frame?_eq, Option.bind_eq_some_iff]

theorem mem_bound_of_get? {position : Nat} {name : Name} {value : Address}
    (found : scopes.get? position name = some value) : value ∈ scopes.bound := by
  obtain ⟨frame, member, binds⟩ := get?_eq_some_iff.mp found
  rw [bound, Multiset.mem_coe, List.mem_flatMap]
  exact ⟨frame, List.mem_of_getElem? member, ScopeFrame.mem_values_of_get? binds⟩

theorem depth_pos (scopes : Scopes) : 0 < scopes.depth :=
  Nat.succ_pos _

theorem lt_depth_of_get? {position : Nat} {name : Name} {value : Address}
    (found : scopes.get? position name = some value) : position < scopes.depth := by
  obtain ⟨frame, member, _⟩ := get?_eq_some_iff.mp found
  have bounded := (List.getElem?_eq_some_iff.mp member).1
  simpa [frames, depth] using bounded

theorem get?_of_lookup? {name : Name} {floor : Nat} {value : Address}
    (found : scopes.lookup? name floor = some value) :
    ∃ position, scopes.resolve? name floor = some position ∧
      scopes.get? position name = some value :=
  Option.bind_eq_some_iff.mp found

/-! ## The innermost frame -/

section Resolution

variable {name : Name} {floor position : Nat}

theorem search_eq_none_iff {count : Nat} :
    scopes.search name floor count = none ↔
      ∀ index, floor ≤ index → index < count → scopes.get? index name = none := by
  induction count with
  | zero => simp [search]
  | succ count induction =>
      rw [search]
      split
      · simp only [true_iff]
        intro index above below
        omega
      · split
        · rename_i high bound
          simp only [reduceCtorEq, false_iff]
          intro unbound
          simp [binds, unbound count (by omega) (Nat.lt_succ_self count)] at bound
        · rename_i high unbound
          rw [induction]
          constructor
          · intro lower index above below
            rcases Nat.lt_succ_iff_lt_or_eq.mp below with below | rfl
            · exact lower index above below
            · simpa [binds] using unbound
          · intro all index above below
            exact all index above (Nat.lt_succ_of_lt below)

theorem search_eq_some_iff {count : Nat} :
    scopes.search name floor count = some position ↔
      IsGreatest {index | floor ≤ index ∧ index < count ∧ scopes.get? index name ≠ none}
        position := by
  induction count with
  | zero => simp [search, IsGreatest]
  | succ count induction =>
      rw [search]
      split
      · simp only [reduceCtorEq, false_iff]
        rintro ⟨⟨above, below, _⟩, _⟩
        omega
      · split
        · rename_i high bound
          have greatest : IsGreatest
              {index | floor ≤ index ∧ index < count + 1 ∧ scopes.get? index name ≠ none} count := by
            refine ⟨⟨by omega, Nat.lt_succ_self count, ?_⟩, ?_⟩
            · simpa [binds, Option.isSome_iff_ne_none] using bound
            · intro index member
              exact Nat.le_of_lt_succ member.2.1
          constructor
          · intro found
            exact Option.some.inj found ▸ greatest
          · intro other
            rw [greatest.unique other]
        · rename_i high unbound
          rw [induction]
          suffices same : {index | floor ≤ index ∧ index < count ∧ scopes.get? index name ≠ none} =
              {index | floor ≤ index ∧ index < count + 1 ∧ scopes.get? index name ≠ none} by
            rw [same]
          have unbound : scopes.get? count name = none := by simpa [binds] using unbound
          ext index
          constructor
          · rintro ⟨above, below, bound⟩
            exact ⟨above, Nat.lt_succ_of_lt below, bound⟩
          · rintro ⟨above, below, bound⟩
            refine ⟨above, Nat.lt_of_le_of_ne (Nat.le_of_lt_succ below) ?_, bound⟩
            rintro rfl
            exact bound unbound

theorem get?_of_depth_le (beyond : scopes.depth ≤ position) (name : Name) :
    scopes.get? position name = none := by
  by_contra bound
  obtain ⟨value, found⟩ := Option.ne_none_iff_exists'.mp bound
  exact absurd (lt_depth_of_get? found) (Nat.not_lt.mpr beyond)

/-- A name resolves to the innermost frame that has it, down to the floor, and otherwise to the
root. -/
theorem resolve?_eq_some_iff :
    scopes.resolve? name floor = some position ↔
      IsGreatest {index | floor ≤ index ∧ scopes.get? index name ≠ none} position ∨
        (∀ index, floor ≤ index → scopes.get? index name = none) ∧
          position = 0 ∧ scopes.get? 0 name ≠ none := by
  have below : ∀ {index}, scopes.get? index name ≠ none → index < scopes.depth := by
    intro index bound
    by_contra beyond
    exact bound (get?_of_depth_le (Nat.not_lt.mp beyond) name)
  have everywhere : {index | floor ≤ index ∧ index < scopes.depth ∧ scopes.get? index name ≠ none} =
      {index | floor ≤ index ∧ scopes.get? index name ≠ none} := by
    ext index
    exact ⟨fun member => ⟨member.1, member.2.2⟩,
      fun member => ⟨member.1, below member.2, member.2⟩⟩
  rw [resolve?]
  cases searched : scopes.search name floor scopes.depth with
  | some found =>
      have greatest := search_eq_some_iff.mp searched
      rw [everywhere] at greatest
      simp only [Option.some.injEq]
      constructor
      · rintro rfl
        exact .inl greatest
      · rintro (other | ⟨unbound, _⟩)
        · exact greatest.unique other
        · exact absurd (unbound found greatest.1.1) greatest.1.2
  | none =>
      have unbound : ∀ index, floor ≤ index → scopes.get? index name = none := by
        intro index above
        by_contra bound
        exact bound (search_eq_none_iff.mp searched index above (below bound))
      by_cases root : scopes.get? 0 name = none
      · simp only [binds, root]
        constructor
        · intro found
          cases found
        · rintro (⟨⟨above, bound⟩, _⟩ | ⟨_, _, bound⟩)
          · exact absurd (unbound position above) bound
          · exact absurd rfl bound
      · simp only [binds, Option.isSome_iff_ne_none.mpr root, if_true, Option.some.injEq]
        constructor
        · rintro rfl
          exact .inr ⟨unbound, rfl, root⟩
        · rintro (⟨⟨above, bound⟩, _⟩ | ⟨_, same, _⟩)
          · exact absurd (unbound position above) bound
          · exact same.symm

theorem exists_get?_of_resolve? (resolved : scopes.resolve? name floor = some position) :
    ∃ value, scopes.get? position name = some value := by
  rw [← Option.ne_none_iff_exists']
  rcases resolve?_eq_some_iff.mp resolved with greatest | ⟨_, rfl, bound⟩
  · exact greatest.1.2
  · exact bound

end Resolution

/-! ## Binding a name -/

private theorem flatMap_modify {frames : List ScopeFrame} {position : Nat}
    {frame : ScopeFrame} (found : frames[position]? = some frame)
    (change : ScopeFrame → ScopeFrame) :
    ((frames.modify position change).flatMap ScopeFrame.values : Multiset Address) +
        (frame.values : Multiset Address) =
      (frames.flatMap ScopeFrame.values : Multiset Address) +
        ((change frame).values : Multiset Address) := by
  induction frames generalizing position with
  | nil => simp at found
  | cons first others induction =>
      cases position with
      | zero =>
          simp only [List.getElem?_cons_zero, Option.some.injEq] at found
          subst found
          simp only [List.modify_zero_cons, List.flatMap_cons, ← Multiset.coe_add]
          ac_rfl
      | succ position =>
          simp only [List.getElem?_cons_succ] at found
          have rest := induction found
          simp only [List.modify_succ_cons, List.flatMap_cons, ← Multiset.coe_add, add_assoc]
          rw [rest]

theorem Distinct.put (distinct : scopes.Distinct) (position : Nat) (name : Name)
    (value : Address) : (scopes.modifyFrame position (·.put name value)).Distinct := by
  intro frame member
  rw [frames_modifyFrame] at member
  obtain ⟨index, found⟩ := List.mem_iff_getElem?.mp member
  rw [List.getElem?_modify] at found
  obtain ⟨before, old, rfl⟩ := Option.map_eq_some_iff.mp found
  have kept := distinct before (List.mem_of_getElem? old)
  split
  · exact kept.put name value
  · exact kept

/-- The counts of an object that takes over a name. -/
theorem Distinct.bound_exchanged (distinct : scopes.Distinct) {position : Nat} {name : Name}
    {previous? : Option Address} (inside : position < scopes.depth)
    (previous : scopes.get? position name = previous?) (value : Address) :
    (previous?.toList : Multiset Address) +
        (scopes.modifyFrame position (·.put name value)).bound =
      value ::ₘ scopes.bound := by
  have bounded : position < scopes.frames.length := by simpa [frames, depth] using inside
  have found := List.getElem?_eq_getElem bounded
  have exchanged := (distinct _ (List.getElem_mem bounded)).values_exchanged name value
  rw [get?, frame?_eq, found, Option.bind_some] at previous
  rw [previous] at exchanged
  rw [bound, frames_modifyFrame]
  apply add_right_cancel (b := ((scopes.frames[position]).values : Multiset Address))
  rw [add_assoc, flatMap_modify found, add_left_comm, exchanged, Multiset.add_cons,
    Multiset.cons_add]
  rfl

theorem mem_bound_put {position : Nat} {name : Name}
    {value root : Address}
    (member : root ∈ (scopes.modifyFrame position (·.put name value)).bound) :
    root = value ∨ root ∈ scopes.bound := by
  simp only [bound, frames_modifyFrame, Multiset.mem_coe, List.mem_flatMap] at member ⊢
  obtain ⟨frame, inside, member⟩ := member
  obtain ⟨index, found⟩ := List.mem_iff_getElem?.mp inside
  rw [List.getElem?_modify] at found
  obtain ⟨old, there, rfl⟩ := Option.map_eq_some_iff.mp found
  have known := List.mem_of_getElem? there
  split at member
  · exact (ScopeFrame.mem_values_put member).imp_right fun inside => ⟨old, known, inside⟩
  · exact Or.inr ⟨old, known, member⟩

/-- Besides a value that takes over a name, only what was bound is still bound or given
back for it. -/
theorem mem_of_rebound {position : Nat} {name : Name} {previous? : Option Address}
    {value root : Address} (previous : scopes.get? position name = previous?)
    (member : root ∈ previous?.toList ∨
      root ∈ (scopes.modifyFrame position (·.put name value)).bound) :
    root = value ∨ root ∈ scopes.bound := by
  rcases member with replaced | bound
  · exact Or.inr (mem_bound_of_get? (previous.trans (Option.mem_toList.mp replaced)))
  · exact mem_bound_put bound

theorem get?_put (position : Nat) (name : Name) (value : Address)
    (inside : position < scopes.depth) (position' : Nat) (name' : Name) :
    (scopes.modifyFrame position (·.put name value)).get? position' name' =
      if position' = position ∧ name' = name then some value
      else scopes.get? position' name' := by
  simp only [get?, frame?_eq, frames_modifyFrame, List.getElem?_modify]
  by_cases same : position = position'
  · subst same
    have bounded : position < scopes.frames.length := by simpa [frames, depth] using inside
    simp [List.getElem?_eq_getElem bounded, ScopeFrame.get?_put]
  · simp [same, Ne.symm same]

@[simp] theorem depth_modifyFrame (position : Nat) (change : ScopeFrame → ScopeFrame) :
    (scopes.modifyFrame position change).depth = scopes.depth := by
  cases position with
  | zero => rfl
  | succ position => simp [modifyFrame, depth]

/-! ## Frames that come and go -/

@[simp] theorem frames_push (scopes : Scopes) : scopes.push.frames = scopes.frames ++ [({} : ScopeFrame)] := by
  simp [push, frames]

@[simp] theorem bound_push (scopes : Scopes) : scopes.push.bound = scopes.bound := by
  simp [bound, ScopeFrame.values]

theorem Distinct.push (distinct : scopes.Distinct) : scopes.push.Distinct := by
  intro frame member
  rw [frames_push, List.mem_append, List.mem_singleton] at member
  rcases member with old | rfl
  · exact distinct frame old
  · exact List.nodup_nil

/-- Without its innermost frame. -/
def dropFrame (scopes : Scopes) : Scopes :=
  { scopes with nested := scopes.nested.pop }

theorem frames_dropFrame {frame : ScopeFrame} (last : scopes.nested.back? = some frame) :
    scopes.frames = scopes.dropFrame.frames ++ [frame] := by
  obtain ⟨others, split⟩ := Array.back?_eq_some_iff.mp last
  simp [frames, dropFrame, split]

theorem bound_of_frames {lower : Scopes} {frame : ScopeFrame}
    (split : scopes.frames = lower.frames ++ [frame]) :
    scopes.bound = (frame.values : Multiset Address) + lower.bound := by
  simp only [bound, split, List.flatMap_append, List.flatMap_singleton, ← Multiset.coe_add]
  exact add_comm _ _

theorem bound_dropFrame {frame : ScopeFrame} (last : scopes.nested.back? = some frame) :
    scopes.bound = (frame.values : Multiset Address) + scopes.dropFrame.bound :=
  bound_of_frames (frames_dropFrame last)

theorem Distinct.dropFrame {frame : ScopeFrame} (distinct : scopes.Distinct)
    (last : scopes.nested.back? = some frame) : scopes.dropFrame.Distinct := by
  intro other member
  apply distinct
  rw [frames_dropFrame last]
  exact List.mem_append_left _ member

/-! ## Frames that skip -/

private theorem getElem?_skip (positions : List Nat) (scopes : Scopes) (position : Nat) :
    (positions.foldl
        (fun scopes position =>
          scopes.modifyFrame position ({ · with skipsRest := true })) scopes).frames[position]? =
      scopes.frames[position]?.map fun frame =>
        if position ∈ positions then { frame with skipsRest := true } else frame := by
  induction positions generalizing scopes with
  | nil => simp
  | cons first others induction =>
      rw [List.foldl_cons, induction, frames_modifyFrame, List.getElem?_modify]
      cases scopes.frames[position]? with
      | none => simp
      | some frame =>
          by_cases same : first = position
          · simp [same]
          · simp [same, Ne.symm same]

theorem getElem?_skipFrom (scopes : Scopes) (depth position : Nat) :
    (scopes.skipFrom depth).frames[position]? =
      scopes.frames[position]?.map fun frame =>
        if depth ≤ position then { frame with skipsRest := true } else frame := by
  rw [skipFrom, getElem?_skip]
  cases found : scopes.frames[position]? with
  | none => rfl
  | some frame =>
      have inside : position < scopes.depth := by
        have bounded := (List.getElem?_eq_some_iff.mp found).1
        simpa [frames, Scopes.depth] using bounded
      have covered : position ∈ List.range' depth (scopes.depth - depth) ↔
          depth ≤ position := by
        rw [List.mem_range'_1]
        omega
      simp [covered]

@[simp] theorem get?_skipFrom (scopes : Scopes) (depth position : Nat) (name : Name) :
    (scopes.skipFrom depth).get? position name = scopes.get? position name := by
  simp only [get?, frame?_eq, getElem?_skipFrom]
  cases scopes.frames[position]? with
  | none => rfl
  | some frame =>
      simp only [Option.map_some, Option.bind_some]
      split
      · rfl
      · rfl

private theorem map_skipFrom {α : Type} (view : ScopeFrame → α)
    (unmarked : ∀ frame : ScopeFrame, view { frame with skipsRest := true } = view frame)
    (scopes : Scopes) (depth : Nat) :
    (scopes.skipFrom depth).frames.map view = scopes.frames.map view := by
  apply List.ext_getElem?
  intro position
  rw [List.getElem?_map, List.getElem?_map, getElem?_skipFrom, Option.map_map]
  congr 1
  funext frame
  simp only [Function.comp_apply]
  split
  · exact unmarked frame
  · rfl

@[simp] theorem depth_skipFrom (scopes : Scopes) (depth : Nat) :
    (scopes.skipFrom depth).depth = scopes.depth := by
  have same := map_skipFrom (fun _ => ()) (fun _ => rfl) scopes depth
  have lengths := congrArg List.length same
  simpa [frames, Scopes.depth] using lengths

@[simp] theorem bound_skipFrom (scopes : Scopes) (depth : Nat) :
    (scopes.skipFrom depth).bound = scopes.bound := by
  have same := map_skipFrom ScopeFrame.values (fun _ => rfl) scopes depth
  simp only [bound, List.flatMap_def, same]

theorem Distinct.skipFrom (distinct : scopes.Distinct) (depth : Nat) :
    (scopes.skipFrom depth).Distinct := by
  have same := map_skipFrom ScopeFrame.Distinct (fun _ => rfl) scopes depth
  intro frame member
  have holds : frame.Distinct ∈ scopes.frames.map ScopeFrame.Distinct := by
    rw [← same]
    exact List.mem_map_of_mem member
  obtain ⟨original, old, equal⟩ := List.mem_map.mp holds
  rw [← equal]
  exact distinct original old

/-! ## Popping -/

theorem pop_of_back? {frame : ScopeFrame} (last : scopes.nested.back? = some frame)
    (heap : Heap) :
    scopes.pop heap = (scopes.dropFrame, heap.dropSlots frame.values) := by
  simp [pop, last, dropFrame]

theorem pop_of_root (root : scopes.nested.back? = none) (heap : Heap) :
    scopes.pop heap = (scopes, heap) := by
  simp [pop, root]

end Scopes

end ScriptEngine
