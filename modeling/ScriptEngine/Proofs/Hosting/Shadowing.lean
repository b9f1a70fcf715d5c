import ScriptEngine.Proofs.Control.Signals
import ScriptEngine.Proofs.Ownership.Assembly

/-!
# Shadowing

Frames are pushed and popped, names are declared and slots are given other objects, in
any order.  The scopes are then a stack of maps: a name stands for what was put under it
last in the innermost frame that has it, down to a floor, and otherwise in the root.
What goes on in new frames leaves the ones below as they are, and gives back every slot
that it takes.
-/

namespace ScriptEngine

namespace Scopes

/-- What is done to scopes.  A value comes with a handle, which is taken over. -/
inductive Act where
  | push
  | pop
  | truncate (depth : Nat)
  | declare (name : Name) (value : Address)
  | replace (position : Nat) (name : Name) (value : Address)
deriving DecidableEq, Repr

namespace Act

/-- The objects whose handles an act takes over. -/
def taken : Act → List Address
  | .push | .pop | .truncate _ => []
  | .declare _ value | .replace _ _ value => [value]

/-- Acts that leave alone the frames below the floor, where there are `depth` frames at first
and in the end one more than lie below the floor. -/
inductive Inside (floor : Nat) : Nat → List Act → Prop where
  | done : Inside floor (floor + 1) []
  | push {depth : Nat} {acts : List Act} :
      Inside floor (depth + 1) acts → Inside floor depth (.push :: acts)
  | pop {depth : Nat} {acts : List Act} :
      floor < depth → Inside floor depth acts → Inside floor (depth + 1) (.pop :: acts)
  | truncate {depth kept : Nat} {acts : List Act} :
      floor < kept → Inside floor (min depth kept) acts →
        Inside floor depth (.truncate kept :: acts)
  | declare {depth : Nat} {acts : List Act} (name : Name) (value : Address) :
      Inside floor depth acts → Inside floor depth (.declare name value :: acts)
  | replace {depth position : Nat} {acts : List Act} (name : Name) (value : Address) :
      floor ≤ position → Inside floor depth acts →
        Inside floor depth (.replace position name value :: acts)

end Act

/-- An object that is replaced is given up, and so is one that finds no slot. -/
def perform (scopes : Scopes) (heap : Heap) : Act → Scopes × Heap
  | .push => (scopes.push, heap)
  | .pop => scopes.pop heap
  | .truncate depth => scopes.truncate heap depth
  | .declare name value => scopes.declare heap name value
  | .replace position name value =>
      match (Place.binding position name).store scopes heap value with
      | (.ok previous, scopes, heap) => (scopes, heap.release previous)
      | (.error _, scopes, heap) => (scopes, heap.release value)

def performAll (scopes : Scopes) (heap : Heap) : List Act → Scopes × Heap
  | [] => (scopes, heap)
  | act :: acts =>
      let (scopes, heap) := scopes.perform heap act
      scopes.performAll heap acts

/-- A stack of maps from names to objects, that of the root first. -/
abbrev Maps := List (Name → Option Address)

namespace Maps

/-- One map, which has no names. -/
def blank : Maps := [fun _ => none]

def get? (maps : Maps) (position : Nat) (name : Name) : Option Address :=
  maps[position]?.bind (· name)

def write (maps : Maps) (position : Nat) (name : Name) (value : Address) : Maps :=
  maps.modify position fun map => Function.update map name (some value)

def perform (maps : Maps) : Act → Maps
  | .push => maps ++ blank
  | .pop => maps.take (max 1 (maps.length - 1))
  | .truncate depth => maps.take (max 1 depth)
  | .declare name value => maps.write (maps.length - 1) name value
  | .replace position name value =>
      if maps.get? position name = none then maps else maps.write position name value

/-- The maps after acts on a blank one. -/
def after (acts : List Act) : Maps :=
  acts.foldl perform blank

/-- The map and the name under which an act puts an object. -/
def put? (maps : Maps) : Act → Option (Nat × Name × Address)
  | .push | .pop | .truncate _ => none
  | .declare name value => some (maps.length - 1, name, value)
  | .replace position name value =>
      if maps.get? position name = none then none else some (position, name, value)

/-- The position of the innermost map that has the name, down to the floor, and otherwise that
of the root. -/
def Resolves (maps : Maps) (name : Name) (floor position : Nat) : Prop :=
  IsGreatest {index | floor ≤ index ∧ maps.get? index name ≠ none} position ∨
    (∀ index, floor ≤ index → maps.get? index name = none) ∧
      position = 0 ∧ maps.get? 0 name ≠ none

end Maps

/-- One of the acts put the value under the name in a frame.  That frame has stayed since, and
nothing else has been put there. -/
def LastPut (acts : List Act) (position : Nat) (name : Name) (value : Address) : Prop :=
  ∃ earlier act later, acts = earlier ++ act :: later ∧
    (Maps.after earlier).put? act = some (position, name, value) ∧
    ∀ between next rest, later = between ++ next :: rest →
      (∀ other, (Maps.after (earlier ++ act :: between)).put? next ≠ some (position, name, other)) ∧
        position < (Maps.after (earlier ++ act :: between ++ [next])).length

variable {scopes : Scopes} {heap : Heap} {name : Name} {value : Address} {position floor : Nat}
  {acts : List Act}

/-! ## Frames -/

theorem frames_pop (scopes : Scopes) (heap : Heap) :
    (scopes.pop heap).1.frames = scopes.frames.take (max 1 (scopes.depth - 1)) := by
  cases last : scopes.nested.back? with
  | none =>
      have single : scopes.depth = 1 := by simp [depth, Array.back?_eq_none_iff.mp last]
      rw [pop_of_root last, List.take_of_length_le]
      simp [length_frames, single]
  | some frame =>
      have split := frames_dropFrame last
      have counted := congrArg List.length split
      rw [List.length_append, length_frames, length_frames, List.length_singleton] at counted
      have lower : max 1 (scopes.depth - 1) = scopes.dropFrame.frames.length := by
        have positive := scopes.dropFrame.depth_pos
        rw [length_frames]
        omega
      rw [pop_of_back? last, lower, split, List.take_left]

theorem frames_popMany (scopes : Scopes) (heap : Heap) (count : Nat) :
    (scopes.popMany heap count).1.frames = scopes.frames.take (max 1 (scopes.depth - count)) := by
  have positive := scopes.depth_pos
  induction count generalizing scopes heap with
  | zero =>
      rw [popMany, List.take_of_length_le]
      rw [length_frames]
      omega
  | succ count induction =>
      have counted := congrArg List.length (scopes.frames_pop heap)
      rw [List.length_take, length_frames, length_frames] at counted
      rw [popMany, induction _ _ (depth_pos _), frames_pop, List.take_take, counted]
      congr 1
      omega

theorem frames_truncate (scopes : Scopes) (heap : Heap) (depth : Nat) :
    (scopes.truncate heap depth).1.frames = scopes.frames.take (max 1 depth) := by
  rw [truncate, frames_popMany]
  by_cases deep : scopes.depth ≤ max 1 depth
  · rw [List.take_of_length_le, List.take_of_length_le]
    · rwa [length_frames]
    · rw [length_frames]
      omega
  · congr 1
    omega

/-- A name is bound in a frame, and the object that it named there is given up. -/
def rebind (scopes : Scopes) (heap : Heap) (position : Nat) (name : Name) (value : Address) :
    Scopes × Heap :=
  (scopes.modifyFrame position (·.put name value),
    (heap.enterSlot value).dropSlots (scopes.get? position name).toList)

theorem declare_eq (scopes : Scopes) (heap : Heap) (name : Name) (value : Address) :
    scopes.declare heap name value = scopes.rebind heap (scopes.depth - 1) name value := rfl

theorem perform_replace_of_bound (bound : scopes.get? position name ≠ none) (heap : Heap)
    (value : Address) :
    scopes.perform heap (.replace position name value) =
      scopes.rebind heap position name value := by
  obtain ⟨previous, found⟩ := Option.ne_none_iff_exists'.mp bound
  simp only [perform, Place.store, Place.load, Place.point, found, rebind]
  rfl

theorem perform_replace_of_unbound (unbound : scopes.get? position name = none) (heap : Heap)
    (value : Address) :
    scopes.perform heap (.replace position name value) = (scopes, heap.release value) := by
  simp only [perform, Place.store, Place.load, unbound]

theorem distinct_initial : initial.Distinct := by
  intro frame member
  obtain rfl := List.mem_singleton.mp member
  exact List.nodup_nil

theorem Distinct.take (distinct : scopes.Distinct) {lower : Scopes} {count : Nat}
    (taken : lower.frames = scopes.frames.take count) : lower.Distinct := by
  intro frame member
  rw [taken] at member
  exact distinct frame (List.mem_of_mem_take member)

theorem Distinct.perform (distinct : scopes.Distinct) (heap : Heap) (act : Act) :
    (scopes.perform heap act).1.Distinct := by
  cases act with
  | push => exact distinct.push
  | pop => exact distinct.take (scopes.frames_pop heap)
  | truncate depth => exact distinct.take (scopes.frames_truncate heap depth)
  | declare name value => exact distinct.put _ name value
  | replace position name value =>
      by_cases bound : scopes.get? position name = none
      · rw [perform_replace_of_unbound bound]
        exact distinct
      · rw [perform_replace_of_bound bound]
        exact distinct.put position name value

/-! ## Scopes as maps -/

/-- What the frames bind. -/
def maps (scopes : Scopes) : Maps :=
  scopes.frames.map ScopeFrame.get?

theorem length_maps (scopes : Scopes) : scopes.maps.length = scopes.depth := by
  rw [maps, List.length_map, length_frames]

theorem get?_maps (scopes : Scopes) (position : Nat) (name : Name) :
    scopes.maps.get? position name = scopes.get? position name := by
  rw [maps, Maps.get?, get?, frame?_eq, List.getElem?_map, Option.bind_map]
  rfl

theorem maps_put (scopes : Scopes) (position : Nat) (name : Name) (value : Address) :
    (scopes.modifyFrame position (·.put name value)).maps =
      scopes.maps.write position name value := by
  apply List.ext_getElem?
  intro index
  have updated (frame : ScopeFrame) :
      (frame.put name value).get? = Function.update frame.get? name (some value) := by
    funext other
    rw [ScopeFrame.get?_put, Function.update_apply]
  simp only [maps, Maps.write, frames_modifyFrame, List.getElem?_map, List.getElem?_modify]
  cases scopes.frames[index]? with
  | none => rfl
  | some frame =>
      by_cases same : position = index
      · simp [same, updated]
      · simp [same]

/-- Scopes are changed as maps are. -/
theorem maps_perform (scopes : Scopes) (heap : Heap) (act : Act) :
    (scopes.perform heap act).1.maps = scopes.maps.perform act := by
  cases act with
  | push =>
      rw [perform, maps, frames_push, List.map_append]
      rfl
  | pop => rw [perform, maps, frames_pop, List.map_take, Maps.perform, length_maps, maps]
  | truncate depth => rw [perform, maps, frames_truncate, List.map_take, Maps.perform, maps]
  | declare name value =>
      rw [perform, declare_eq, rebind, maps_put, Maps.perform, length_maps]
  | replace position name value =>
      rw [Maps.perform, get?_maps]
      split
      · rename_i unbound
        rw [perform_replace_of_unbound unbound]
      · rename_i bound
        rw [perform_replace_of_bound bound, rebind, maps_put]

theorem maps_performAll (scopes : Scopes) (heap : Heap) (acts : List Act) :
    (scopes.performAll heap acts).1.maps = acts.foldl Maps.perform scopes.maps := by
  induction acts generalizing scopes heap with
  | nil => rfl
  | cons act acts induction => rw [performAll, induction, maps_perform, List.foldl_cons]

/-! ## What was put last -/

namespace Maps

variable {maps : Maps}

theorem get?_write (maps : Maps) (written : Nat) (name other : Name) (value : Address)
    (position : Nat) :
    (maps.write written name value).get? position other =
      if other = name ∧ written = position ∧ position < maps.length then some value
      else maps.get? position other := by
  rw [write, get?, get?, List.getElem?_modify]
  by_cases same : written = position
  · subst same
    by_cases inside : written < maps.length
    · simp [inside, Function.update_apply]
    · simp [inside]
  · simp [same]

theorem get?_of_length_le (beyond : maps.length ≤ position) (name : Name) :
    maps.get? position name = none := by
  rw [get?, List.getElem?_eq_none beyond]
  rfl

theorem get?_take (maps : Maps) (count position : Nat) (name : Name) :
    get? (maps.take count) position name =
      if position < (maps.take count).length then maps.get? position name else none := by
  split
  · rename_i inside
    rw [List.length_take, Nat.lt_min] at inside
    rw [get?, get?, List.getElem?_take_of_lt inside.1]
  · rename_i beyond
    exact get?_of_length_le (Nat.not_lt.mp beyond) name

@[simp] theorem length_write (maps : Maps) (position : Nat) (name : Name) (value : Address) :
    (maps.write position name value).length = maps.length :=
  List.length_modify _ _ _

theorem get?_push (maps : Maps) (position : Nat) (name : Name) :
    get? (maps ++ blank) position name = maps.get? position name := by
  by_cases inside : position < maps.length
  · rw [get?, List.getElem?_append_left inside]
    rfl
  · rw [get?_of_length_le (Nat.not_lt.mp inside), get?, blank,
      List.getElem?_append_right (Nat.not_lt.mp inside)]
    cases position - maps.length with
    | zero => rfl
    | succ beyond => rfl

theorem get?_eq_ite (maps : Maps) (position : Nat) (name : Name) :
    maps.get? position name = if position < maps.length then maps.get? position name else none := by
  split
  · rfl
  · rename_i beyond
    exact get?_of_length_le (Nat.not_lt.mp beyond) name

theorem lt_length_of_get? (bound : maps.get? position name ≠ none) : position < maps.length := by
  by_contra beyond
  exact bound (get?_of_length_le (Nat.not_lt.mp beyond) name)

theorem get?_perform_of_put (inhabited : 0 < maps.length) {act : Act}
    (puts : maps.put? act = some (position, name, value)) :
    (maps.perform act).get? position name = some value := by
  cases act with
  | push | pop | truncate => cases puts
  | declare declared put =>
      cases puts
      rw [perform, get?_write, if_pos]
      exact ⟨rfl, rfl, Nat.sub_one_lt_of_lt inhabited⟩
  | replace replaced renamed put =>
      rw [put?] at puts
      split at puts
      · cases puts
      · rename_i bound
        cases puts
        rw [perform, if_neg bound, get?_write, if_pos]
        exact ⟨rfl, rfl, lt_length_of_get? bound⟩

/-- A name keeps its object as long as its map stays and nothing else is put there. -/
theorem get?_perform_of_not_put {act : Act}
    (spared : ∀ value, maps.put? act ≠ some (position, name, value)) :
    (maps.perform act).get? position name =
      if position < (maps.perform act).length then maps.get? position name else none := by
  cases act with
  | push => rw [get?_eq_ite, perform, get?_push]
  | pop => exact get?_take maps _ position name
  | truncate depth => exact get?_take maps _ position name
  | declare declared put =>
      rw [perform, length_write, ← get?_eq_ite, get?_write, if_neg]
      rintro ⟨rfl, rfl, _⟩
      exact spared put rfl
  | replace replaced renamed put =>
      rw [perform]
      split
      · exact get?_eq_ite maps position name
      · rename_i bound
        rw [length_write, ← get?_eq_ite, get?_write, if_neg]
        rintro ⟨rfl, rfl, _⟩
        exact spared put (if_neg bound)

theorem after_append_singleton (acts : List Act) (act : Act) :
    after (acts ++ [act]) = (after acts).perform act := by
  rw [after, List.foldl_append]
  rfl

end Maps

theorem maps_after (heap : Heap) (acts : List Act) :
    (initial.performAll heap acts).1.maps = Maps.after acts :=
  maps_performAll initial heap acts

theorem Maps.length_after_pos (acts : List Act) : 0 < (after acts).length := by
  rw [← maps_after {} acts, length_maps]
  exact depth_pos _

theorem lastPut_append_iff {act : Act} :
    LastPut (acts ++ [act]) position name value ↔
      (Maps.after acts).put? act = some (position, name, value) ∨
        LastPut acts position name value ∧
          (∀ other, (Maps.after acts).put? act ≠ some (position, name, other)) ∧
          position < (Maps.after (acts ++ [act])).length := by
  constructor
  · rintro ⟨earlier, put, later, split, puts, since⟩
    -- the act that put the value is the last one, or the last one came after it
    rcases later.eq_nil_or_concat with rfl | ⟨later, last, rfl⟩
    · obtain ⟨rfl, same⟩ := List.append_inj' split rfl
      cases same
      exact .inl puts
    · rw [List.concat_eq_append, ← List.cons_append, ← List.append_assoc] at split
      obtain ⟨rfl, same⟩ := List.append_inj' split rfl
      cases same
      refine .inr ⟨⟨earlier, put, later, rfl, puts, ?_⟩, since later act [] (by simp)⟩
      intro between next rest split
      exact since between next (rest ++ [act]) (by simp [split])
  · rintro (puts | ⟨⟨earlier, put, later, rfl, puts, since⟩, kept⟩)
    · exact ⟨acts, act, [], rfl, puts, by simp⟩
    · refine ⟨earlier, put, later ++ [act], by simp, puts, ?_⟩
      intro between next rest split
      rcases rest.eq_nil_or_concat with rfl | ⟨rest, last, rfl⟩
      · obtain ⟨rfl, same⟩ := List.append_inj' split rfl
        cases same
        exact kept
      · rw [List.concat_eq_append, ← List.cons_append, ← List.append_assoc] at split
        obtain ⟨rfl, same⟩ := List.append_inj' split rfl
        exact since between next rest rfl

/-- The maps have what was put there last. -/
theorem get?_after_eq_some_iff :
    (Maps.after acts).get? position name = some value ↔ LastPut acts position name value := by
  induction acts using List.reverseRecOn with
  | nil =>
      have unbound : (Maps.after []).get? position name = none := Maps.get?_push [] position name
      simp only [unbound, reduceCtorEq, false_iff]
      rintro ⟨earlier, act, later, split, _⟩
      simp at split
  | append_singleton acts act induction =>
      rw [lastPut_append_iff, ← induction, Maps.after_append_singleton]
      -- the act leaves this name of this map alone, or puts something there
      by_cases spared : ∀ other, (Maps.after acts).put? act ≠ some (position, name, other)
      · rw [Maps.get?_perform_of_not_put spared]
        simp [spared, and_comm]
      · push Not at spared
        obtain ⟨other, puts⟩ := spared
        rw [Maps.get?_perform_of_put (Maps.length_after_pos acts) puts, puts]
        simp

/-! ## Frames above others -/

theorem depth_of_frames_take {lower : Scopes} {count : Nat}
    (taken : lower.frames = scopes.frames.take count) : lower.depth = min count scopes.depth := by
  rw [← length_frames, taken, List.length_take, length_frames]

theorem take_modify {frames : List ScopeFrame} (above : floor ≤ position)
    (change : ScopeFrame → ScopeFrame) :
    (frames.modify position change).take floor = frames.take floor := by
  apply List.ext_getElem?
  intro index
  rw [List.getElem?_take, List.getElem?_take]
  split
  · have different : position ≠ index := by omega
    simp [different]
  · rfl

/-- Acts on upper frames leave one of them, and the lower frames as they are. -/
theorem performAll_inside {depth : Nat} (inside : Act.Inside floor depth acts)
    (counted : scopes.depth = depth) (above : floor < depth) (heap : Heap) :
    (scopes.performAll heap acts).1.frames.take floor = scopes.frames.take floor ∧
      (scopes.performAll heap acts).1.depth = floor + 1 := by
  induction inside generalizing scopes heap with
  | done => exact ⟨rfl, counted⟩
  | push _ induction =>
      have opened : scopes.push.depth = _ := (depth_push scopes).trans (congrArg Nat.succ counted)
      have rest := induction opened (Nat.lt_succ_of_lt above) heap
      rw [frames_push, List.take_append_of_le_length (by rw [length_frames]; omega)] at rest
      exact rest
  | pop lower _ induction =>
      have frames := scopes.frames_pop heap
      have rest := induction (by rw [depth_of_frames_take frames]; omega) lower (scopes.pop heap).2
      rw [frames, List.take_take, min_eq_left (by omega)] at rest
      exact rest
  | @truncate depth kept acts lower _ induction =>
      have frames := scopes.frames_truncate heap kept
      have rest := induction (by rw [depth_of_frames_take frames]; omega) (by omega)
        (scopes.truncate heap kept).2
      rw [frames, List.take_take, min_eq_left (by omega)] at rest
      exact rest
  | declare name value _ induction =>
      have declared : (scopes.declare heap name value).1.depth = _ :=
        (depth_modifyFrame _ _).trans counted
      have rest := induction declared above (scopes.declare heap name value).2
      rw [declare_eq, rebind, frames_modifyFrame, take_modify (by omega)] at rest
      exact rest
  | @replace depth position acts name value lower _ induction =>
      rw [performAll]
      by_cases unbound : scopes.get? position name = none
      · rw [perform_replace_of_unbound unbound]
        exact induction counted above _
      · rw [perform_replace_of_bound unbound]
        have rebound : (scopes.rebind heap position name value).1.depth = _ :=
          (depth_modifyFrame _ _).trans counted
        have rest := induction rebound above (scopes.rebind heap position name value).2
        rw [rebind, frames_modifyFrame, take_modify lower] at rest
        exact rest

/-- Acts in a new frame fill it, and nothing else. -/
theorem exists_locals (inside : Act.Inside scopes.depth (scopes.depth + 1) acts) (heap : Heap) :
    ∃ locals : ScopeFrame,
      (scopes.push.performAll heap acts).1.frames = scopes.frames ++ [locals] := by
  obtain ⟨lower, counted⟩ := performAll_inside inside (depth_push scopes) (Nat.lt_succ_self _) heap
  generalize (scopes.push.performAll heap acts).1 = filled at lower counted ⊢
  rw [frames_push, ← length_frames, List.take_left] at lower
  have upper : (filled.frames.drop scopes.frames.length).length = 1 := by
    rw [List.length_drop, length_frames, length_frames, counted, Nat.add_sub_cancel_left]
  obtain ⟨locals, only⟩ := List.length_eq_one_iff.mp upper
  have whole := List.take_append_drop scopes.frames.length filled.frames
  rw [lower, only] at whole
  exact ⟨locals, whole.symm⟩

theorem pop_of_frames {filled : Scopes} {locals : ScopeFrame}
    (split : filled.frames = scopes.frames ++ [locals]) (heap : Heap) :
    filled.pop heap = (scopes, heap.dropSlots locals.values) := by
  rw [eq_push_of_frames split]
  simp [pop]

end Scopes

/-! ## Slots -/

namespace Heap

variable {before after heap : Heap} {slots handles handles' freed : Multiset Address}

/-- The slots that are gone are the ones given and those of objects that are gone. -/
def Frees (before after : Heap) (freed : Multiset Address) : Prop :=
  ∀ address, after.slotCount address + (freed + before.lost after).count address =
    before.slotCount address

theorem Remains.frees (remains : Remains before after)
    (balanced : before.Balanced (freed + slots) handles)
    (balanced' : after.Balanced slots handles') : before.Frees after freed := by
  intro address
  have stored := congrArg (Multiset.count address) remains.stored_add_lost
  rw [balanced.slotCount_eq, balanced'.slotCount_eq]
  simp only [Multiset.count_add] at stored ⊢
  omega

theorem payload?_releaseAll_of_held {addresses : List Address}
    (balanced : heap.Balanced slots (addresses + handles))
    (held : ∀ address ∈ addresses, address ∈ slots + handles) (address : Address) :
    (heap.releaseAll addresses).payload? address = heap.payload? address := by
  induction addresses generalizing heap with
  | nil => rw [releaseAll_nil]
  | cons first others induction =>
      rw [← Multiset.cons_coe, Multiset.cons_add] at balanced
      have inside : first ∈ slots + (others + handles) := by
        rw [add_left_comm]
        exact Multiset.mem_add.mpr (.inr (held first List.mem_cons_self))
      have released : (heap.release first).Balanced slots (others + handles) := balanced.release
      rw [← List.singleton_append, releaseAll_append]
      have rest := induction released fun other member => held other (List.mem_cons_of_mem _ member)
      exact rest.trans (payload?_release_of_held balanced inside address)

/-- Nothing goes with slots on objects that are referred to from elsewhere. -/
theorem lost_dropSlots_of_held {addresses : List Address}
    (balanced : heap.Balanced (addresses + slots) handles)
    (held : ∀ address ∈ addresses, address ∈ slots + handles) :
    heap.lost (heap.dropSlots addresses) = 0 := by
  apply lost_eq_zero
  intro address
  rw [dropSlots, payload?_releaseAll_of_held balanced.leaveSlots held, payload?_leaveSlots]

end Heap

namespace Scopes

variable {scopes : Scopes} {heap : Heap} {slots handles : Multiset Address}

theorem pop_balanced (balanced : heap.Balanced (scopes.bound + slots) handles) :
    (scopes.pop heap).2.Balanced ((scopes.pop heap).1.bound + slots) handles := by
  cases last : scopes.nested.back? with
  | none =>
      rw [pop_of_root last]
      exact balanced
  | some frame =>
      rw [pop_of_back? last]
      rw [bound_dropFrame last, add_assoc] at balanced
      exact balanced.dropSlots

theorem popMany_balanced (balanced : heap.Balanced (scopes.bound + slots) handles) (count : Nat) :
    (scopes.popMany heap count).2.Balanced ((scopes.popMany heap count).1.bound + slots)
      handles := by
  induction count generalizing scopes heap with
  | zero => exact balanced
  | succ count induction => exact induction (pop_balanced balanced)

theorem rebind_balanced {position : Nat} {value : Address} (distinct : scopes.Distinct)
    (inside : position < scopes.depth)
    (balanced : heap.Balanced (scopes.bound + slots) (value ::ₘ handles)) (name : Name) :
    (scopes.rebind heap position name value).2.Balanced
      ((scopes.rebind heap position name value).1.bound + slots) handles := by
  have exchanged := distinct.bound_exchanged inside (rfl : scopes.get? position name = _) value
  have entered := balanced.enterSlot
  rw [← Multiset.cons_add, ← exchanged, add_assoc] at entered
  exact entered.dropSlots

theorem perform_balanced (distinct : scopes.Distinct) (act : Act)
    (balanced : heap.Balanced (scopes.bound + slots) (act.taken + handles)) :
    (scopes.perform heap act).2.Balanced ((scopes.perform heap act).1.bound + slots) handles := by
  cases act with
  | push => simpa [perform, Act.taken] using balanced
  | pop => exact pop_balanced (by simpa [Act.taken] using balanced)
  | truncate depth => exact popMany_balanced (by simpa [Act.taken] using balanced) _
  | declare name value =>
      rw [Act.taken, Multiset.coe_singleton, Multiset.singleton_add] at balanced
      exact rebind_balanced distinct (Nat.sub_one_lt_of_lt scopes.depth_pos) balanced name
  | replace position name value =>
      rw [Act.taken, Multiset.coe_singleton, Multiset.singleton_add] at balanced
      by_cases unbound : scopes.get? position name = none
      · rw [perform_replace_of_unbound unbound]
        exact balanced.release
      · rw [perform_replace_of_bound unbound]
        obtain ⟨previous, found⟩ := Option.ne_none_iff_exists'.mp unbound
        exact rebind_balanced distinct (lt_depth_of_get? found) balanced name

theorem performAll_balanced {acts : List Act} (distinct : scopes.Distinct)
    (balanced : heap.Balanced (scopes.bound + slots) (acts.flatMap Act.taken + handles)) :
    (scopes.performAll heap acts).2.Balanced ((scopes.performAll heap acts).1.bound + slots)
      handles := by
  induction acts generalizing scopes heap with
  | nil => simpa [performAll] using balanced
  | cons act acts induction =>
      rw [List.flatMap_cons, ← Multiset.coe_add, add_assoc] at balanced
      exact induction (distinct.perform heap act) (perform_balanced distinct act balanced)

theorem performAll_distinct (distinct : scopes.Distinct) (heap : Heap) (acts : List Act) :
    (scopes.performAll heap acts).1.Distinct := by
  induction acts generalizing scopes heap with
  | nil => exact distinct
  | cons act acts induction => exact induction (distinct.perform heap act) _

theorem perform_remains (scopes : Scopes) (heap : Heap) (act : Act) :
    heap.Remains (scopes.perform heap act).2 := by
  cases act with
  | push => exact .refl heap
  | pop => exact .pop scopes heap
  | truncate depth => exact .popMany scopes heap _
  | declare name value => exact .declare scopes heap name value
  | replace position name value =>
      by_cases unbound : scopes.get? position name = none
      · rw [perform_replace_of_unbound unbound]
        exact .release heap value
      · rw [perform_replace_of_bound unbound]
        exact (Heap.Remains.enterSlot heap value).trans (.dropSlots _ _)

theorem performAll_remains (scopes : Scopes) (heap : Heap) (acts : List Act) :
    heap.Remains (scopes.performAll heap acts).2 := by
  induction acts generalizing scopes heap with
  | nil => exact .refl heap
  | cons act acts induction => exact (perform_remains scopes heap act).trans (induction _ _)

/-! ## All together -/

/-- Whatever is done to scopes, they are a stack of maps: a name resolves to the innermost frame
that has it, where it stands for what was put there last.  What is done in a new frame is gone with
that frame, and the only slots that are gone besides those of its locals are those of objects that
nothing else refers to. -/
theorem resolves_innermost {acts : List Act} {start : Heap} {scopes : Scopes}
    (performed : (initial.performAll start acts).1 = scopes) :
    -- there is a frame for each map, and always one
    scopes.depth = (Maps.after acts).length ∧ 0 < scopes.depth ∧
    -- the innermost frame that has the name, down to the floor, and otherwise the root
    (∀ name floor position,
      scopes.resolve? name floor = some position ↔
        (Maps.after acts).Resolves name floor position) ∧
    -- however it is asked for, what was put there last
    (∀ name floor position, scopes.resolve? name floor = some position →
      ∃ value, LastPut acts position name value ∧
        scopes.lookup? name floor = some value ∧ scopes.get? position name = some value ∧
        ∀ heap other,
          ((Place.binding position name).store scopes heap other).1 = .ok value) ∧
    (∀ name floor, scopes.resolve? name floor = none → scopes.lookup? name floor = none) ∧
    (∀ position name, scopes.get? position name = (Maps.after acts).get? position name) ∧
    -- whatever is done in a new frame, removing it restores the scopes and gives back the slots
    ∀ {inside : List Act} {filled : Scopes} {heap later : Heap},
      Act.Inside scopes.depth (scopes.depth + 1) inside →
      scopes.performAll heap (.push :: inside) = (filled, later) →
        ∃ (locals : ScopeFrame) (popped : Heap),
          filled.frames = scopes.frames ++ [locals] ∧
          filled.perform later .pop = (scopes, popped) ∧
          ∀ {slots handles : Multiset Address},
            heap.Balanced (scopes.bound + slots) (inside.flatMap Act.taken + handles) →
              popped.Balanced (scopes.bound + slots) handles ∧
              later.Frees popped locals.values ∧ heap.Frees popped 0 ∧
              ((∀ value ∈ locals.values, value ∈ scopes.bound + slots + handles) →
                later.lost popped = 0) := by
  have same : scopes.maps = Maps.after acts := by rw [← maps_after start acts, performed]
  have distinct : scopes.Distinct := by
    have kept := performAll_distinct distinct_initial start acts
    rwa [performed] at kept
  have reads position name : scopes.get? position name = (Maps.after acts).get? position name := by
    rw [← same, get?_maps]
  refine ⟨by rw [← same, length_maps], scopes.depth_pos, ?_, ?_, ?_, reads, ?_⟩
  · intro name floor position
    simp only [resolve?_eq_some_iff, Maps.Resolves, reads]
  · intro name floor position resolved
    obtain ⟨value, found⟩ := exists_get?_of_resolve? resolved
    have put : LastPut acts position name value := by rwa [← get?_after_eq_some_iff, ← reads]
    refine ⟨value, put, by rw [lookup?, resolved, Option.bind_some, found], found, ?_⟩
    intro heap other
    simp only [Place.store, Place.load, found]
  · intro name floor unresolved
    rw [lookup?, unresolved]
    rfl
  · intro inside filled heap later stays run
    have opened : scopes.push.performAll heap inside = (filled, later) := run
    obtain ⟨locals, split⟩ := exists_locals stays heap
    rw [opened] at split
    have popped := pop_of_frames split later
    refine ⟨locals, later.dropSlots locals.values, split, popped, ?_⟩
    intro slots handles balanced
    have counted : later.Balanced (filled.bound + slots) handles := by
      have kept := performAll_balanced distinct.push (by rwa [bound_push])
      rwa [opened] at kept
    rw [bound_of_frames split, add_assoc] at counted
    have remains : heap.Remains (later.dropSlots locals.values) := by
      have kept := performAll_remains scopes.push heap inside
      rw [opened] at kept
      exact kept.trans (.dropSlots later locals.values)
    rw [← zero_add (scopes.bound + slots)] at balanced
    exact ⟨counted.dropSlots, (Heap.Remains.dropSlots _ _).frees counted counted.dropSlots,
      remains.frees balanced counted.dropSlots, Heap.lost_dropSlots_of_held counted⟩

/-- Four numbers, of which handles are kept. -/
def numbered : Heap :=
  let heap := ((({} : Heap).newScalar (.int 1)).2.newScalar (.int 2)).2
  let heap := ((heap.newScalar (.int 3)).2.newScalar (.int 4)).2
  [0, 1, 2, 3, 3, 0, 1].foldl Heap.retain heap

theorem numbered_balanced :
    numbered.Balanced (initial.bound + 0)
      (([0, 1, 2] : List Address) + (([3, 3, 0, 1] : List Address) + {3, 2, 1, 0})) := by
  have crafting := Heap.Balanced.crafting 0 0
  have blank : ({} : Heap).Balanced (0 + 0) (0 + 0) := (Ledger.Balanced.blank none).heap
  have ones := crafting.newScalar (crafting.newScalar blank (.int 1)) (.int 2)
  have scalars := crafting.newScalar (crafting.newScalar ones (.int 3)) (.int 4)
  exact scalars.retainAll (by decide)

/-- A name is shadowed, and shadowed again in a new frame, where its slot then gets another object
while a frame is above. -/
theorem resolves_innermost_twice :
    ∃ (scopes filled : Scopes) (heap later popped : Heap),
      initial.performAll numbered
        [.declare ⟨0⟩ 0, .push, .declare ⟨0⟩ 1, .declare ⟨1⟩ 2] = (scopes, heap) ∧
      scopes.resolve? ⟨0⟩ 1 = some 1 ∧ scopes.resolve? ⟨0⟩ 7 = some 0 ∧
      scopes.resolve? ⟨1⟩ 7 = none ∧
      scopes.performAll heap [.push, .declare ⟨0⟩ 3, .push, .declare ⟨1⟩ 3, .replace 2 ⟨0⟩ 0, .pop,
        .declare ⟨1⟩ 1] = (filled, later) ∧
      filled.resolve? ⟨0⟩ 0 = some 2 ∧ filled.lookup? ⟨0⟩ 0 = some 0 ∧
      filled.perform later .pop = (scopes, popped) ∧
      ∀ address, popped.slotCount address + [1, 0].count address = later.slotCount address := by
  rcases opened : initial.performAll numbered
      [.declare ⟨0⟩ 0, .push, .declare ⟨0⟩ 1, .declare ⟨1⟩ 2] with ⟨scopes, heap⟩
  have performed : (initial.performAll numbered _).1 = scopes := congrArg Prod.fst opened
  have counted : (initial.performAll numbered
      [.declare ⟨0⟩ 0, .push, .declare ⟨0⟩ 1, .declare ⟨1⟩ 2]).2.Balanced (_ + 0) _ :=
    performAll_balanced distinct_initial numbered_balanced
  rw [opened] at counted
  obtain ⟨-, -, -, -, -, -, bracket⟩ := resolves_innermost performed
  obtain rfl : scopes = ⟨{ bindings := [(⟨0⟩, 0)] }, #[{ bindings := [(⟨1⟩, 2), (⟨0⟩, 1)] }]⟩ :=
    congrArg Prod.fst opened.symm
  rcases run : performAll _ heap [.push, .declare ⟨0⟩ 3, .push, .declare ⟨1⟩ 3, .replace 2 ⟨0⟩ 0,
    .pop, .declare ⟨1⟩ 1] with ⟨filled, later⟩
  have stays : Act.Inside 2 3 [.declare ⟨0⟩ 3, .push, .declare ⟨1⟩ 3, .replace 2 ⟨0⟩ 0, .pop,
      .declare ⟨1⟩ 1] :=
    .declare _ _ (.push (.declare _ _ (.replace _ _ le_rfl
      (.pop (by decide) (.declare _ _ .done)))))
  obtain ⟨locals, popped, split, undone, frees⟩ := bracket stays run
  have innermost : filled.frames.getLast? = some { bindings := [(⟨1⟩, 1), (⟨0⟩, 0)] } :=
    congrArg (fun result : Scopes × Heap => result.1.frames.getLast?) run.symm
  obtain rfl : locals = { bindings := [(⟨1⟩, 1), (⟨0⟩, 0)] } := by
    simpa [split] using innermost
  obtain ⟨-, slots, -, nothing⟩ := frees counted
  refine ⟨_, filled, heap, later, popped, rfl, rfl, rfl, rfl, run, ?_, ?_, undone, ?_⟩
  · exact congrArg (fun result : Scopes × Heap => result.1.resolve? ⟨0⟩ 0) run.symm
  · exact congrArg (fun result : Scopes × Heap => result.1.lookup? ⟨0⟩ 0) run.symm
  intro address
  have released := slots address
  rw [nothing (by simp [ScopeFrame.values]), add_zero, Multiset.coe_count] at released
  exact released

end Scopes

end ScriptEngine
