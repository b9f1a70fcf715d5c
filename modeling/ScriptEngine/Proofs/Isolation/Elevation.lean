import ScriptEngine.Proofs.Control.Stacks
import ScriptEngine.Proofs.Isolation.Resemblance

/-!
# Frames above those of callers

A call that runs above the frames of its callers is compared with one that runs without
them: every position in the stacks is raised by the number of frames beneath.  A name that
is looked up above a floor, a loop that belongs to the current call and the call itself are
found in both at positions that correspond.
-/

namespace ScriptEngine

/-- What lies in front does not change. -/
theorem modify_append {α : Type} (front back : List α) (position : Nat) (change : α → α) :
    (front ++ back).modify (front.length + position) change =
      front ++ back.modify position change := by
  induction front with
  | nil => simp
  | cons first front induction =>
      rw [List.length_cons, Nat.add_right_comm, List.cons_append, List.modify_succ_cons,
        induction, List.cons_append]

/-- The frames beneath a call. -/
structure Callers where
  /-- All but the root frame. -/
  scopes : List ScopeFrame
  loops : List LoopFrame
  calls : List CallFrame

namespace Callers

/-- Where a scope frame is with the frames of the callers above the root. -/
def raise (callers : Callers) : Nat → Nat
  | 0 => 0
  | position + 1 => callers.scopes.length + position + 1

def raiseLoop (callers : Callers) (frame : LoopFrame) : LoopFrame :=
  { frame with scopeDepth := callers.raise frame.scopeDepth }

def raiseCall (callers : Callers) (frame : CallFrame) : CallFrame :=
  { frame with
    scopeBase := callers.raise frame.scopeBase
    loopBase := callers.loops.length + frame.loopBase }

variable (callers : Callers)

theorem raise_of_pos {position : Nat} (positive : 0 < position) :
    callers.raise position = callers.scopes.length + position := by
  cases position with
  | zero => exact absurd positive (Nat.lt_irrefl 0)
  | succ position => rfl

/-! ## Scope frames -/

/-- The scopes have the frames of the callers between the root and the other frames. -/
def LiftScopes (scopes lifted : Scopes) : Prop :=
  lifted.frames = scopes.root :: (callers.scopes ++ scopes.nested.toList)

variable {callers}

namespace LiftScopes

variable {scopes lifted : Scopes} (lifts : callers.LiftScopes scopes lifted)
include lifts

theorem root : lifted.root = scopes.root :=
  (List.cons.inj lifts).1

theorem nested : lifted.nested.toList = callers.scopes ++ scopes.nested.toList :=
  (List.cons.inj lifts).2

theorem size : lifted.nested.size = callers.scopes.length + scopes.nested.size := by
  have lengths := congrArg List.length lifts.nested
  simpa using lengths

theorem depth : lifted.depth = callers.raise scopes.depth := by
  rw [Scopes.depth, lifts.size]
  rfl

theorem frame?_raise (position : Nat) :
    lifted.frame? (callers.raise position) = scopes.frame? position := by
  rw [Scopes.frame?_eq, Scopes.frame?_eq, lifts]
  cases position with
  | zero => rfl
  | succ position =>
      rw [raise, List.getElem?_cons_succ, List.getElem?_append_right (Nat.le_add_right _ _),
        Nat.add_sub_cancel_left, Scopes.frames, List.getElem?_cons_succ]

theorem get?_raise (position : Nat) (name : Name) :
    lifted.get? (callers.raise position) name = scopes.get? position name := by
  rw [Scopes.get?, Scopes.get?, lifts.frame?_raise]

theorem binds_raise (position : Nat) (name : Name) :
    lifted.binds (callers.raise position) name = scopes.binds position name := by
  rw [Scopes.binds, Scopes.binds, lifts.get?_raise]

/-- A search above a floor does not get down to the frames of the callers. -/
theorem search_raise (name : Name) {floor : Nat} (positive : 0 < floor) (count : Nat) :
    lifted.search name (callers.raise floor) (callers.scopes.length + count) =
      (scopes.search name floor count).map callers.raise := by
  rw [callers.raise_of_pos positive]
  induction count with
  | zero =>
      cases below : callers.scopes.length + 0 with
      | zero => rfl
      | succ position =>
          have low : position < callers.scopes.length + floor := by omega
          simp only [Scopes.search, if_pos low, Option.map_none]
  | succ count induction =>
      rw [← Nat.add_assoc, Scopes.search, Scopes.search, induction]
      by_cases low : count < floor
      · rw [if_pos low, if_pos (Nat.add_lt_add_left low _)]
        rfl
      · have high : ¬ callers.scopes.length + count < callers.scopes.length + floor := by omega
        rw [if_neg low, if_neg high]
        have raised := callers.raise_of_pos (Nat.lt_of_lt_of_le positive (Nat.le_of_not_lt low))
        rw [← raised, lifts.binds_raise]
        split
        · rfl
        · rfl

theorem resolve?_raise (name : Name) {floor : Nat} (positive : 0 < floor) :
    lifted.resolve? name (callers.raise floor) =
      (scopes.resolve? name floor).map callers.raise := by
  have found := lifts.search_raise name positive scopes.depth
  rw [← callers.raise_of_pos scopes.depth_pos, ← lifts.depth] at found
  rw [Scopes.resolve?, Scopes.resolve?, found]
  cases scopes.search name floor scopes.depth with
  | some position => rfl
  | none =>
      have root := lifts.binds_raise 0 name
      rw [raise] at root
      simp only [Option.map_none, root]
      split
      · rfl
      · rfl

theorem lookup?_raise (name : Name) {floor : Nat} (positive : 0 < floor) :
    lifted.lookup? name (callers.raise floor) = scopes.lookup? name floor := by
  rw [Scopes.lookup?, Scopes.lookup?, lifts.resolve?_raise name positive]
  cases scopes.resolve? name floor with
  | none => rfl
  | some position => exact lifts.get?_raise position name

theorem modifyFrame (position : Nat) (change : ScopeFrame → ScopeFrame) :
    callers.LiftScopes (scopes.modifyFrame position change)
      (lifted.modifyFrame (callers.raise position) change) := by
  rw [LiftScopes, Scopes.frames_modifyFrame, lifts]
  cases position with
  | zero => rfl
  | succ position =>
      rw [raise, List.modify_succ_cons, modify_append]
      simp [Scopes.modifyFrame]

theorem push : callers.LiftScopes scopes.push lifted.push := by
  rw [LiftScopes, Scopes.frames_push, lifts]
  simp [Scopes.push]

/-- Only frames above those of the callers are removed. -/
theorem dropFrame (above : 0 < scopes.nested.size) :
    callers.LiftScopes scopes.dropFrame lifted.dropFrame := by
  have nonempty : scopes.nested.toList ≠ [] := by
    simpa [Array.size_pos_iff] using above
  rw [LiftScopes, Scopes.frames, Scopes.dropFrame, Scopes.dropFrame, lifts.root, Array.toList_pop,
    Array.toList_pop, lifts.nested, List.dropLast_append_of_ne_nil nonempty]

theorem back? (above : 0 < scopes.nested.size) :
    lifted.nested.back? = scopes.nested.back? := by
  have nonempty : scopes.nested.toList ≠ [] := by
    simpa [Array.size_pos_iff] using above
  rw [← Array.getLast?_toList, ← Array.getLast?_toList, lifts.nested,
    List.getLast?_append_of_ne_nil _ nonempty]

theorem innermost (above : 0 < scopes.nested.size) : lifted.innermost = scopes.innermost := by
  rw [Scopes.innermost, Scopes.innermost, lifts.back? above, lifts.root]

theorem skipFrom {depth : Nat} (positive : 0 < depth) :
    callers.LiftScopes (scopes.skipFrom depth) (lifted.skipFrom (callers.raise depth)) := by
  have same : lifted.depth - callers.raise depth = scopes.depth - depth := by
    rw [lifts.depth, callers.raise_of_pos scopes.depth_pos, callers.raise_of_pos positive]
    omega
  unfold Scopes.skipFrom
  rw [same]
  generalize scopes.depth - depth = count
  clear same
  induction count generalizing scopes lifted depth with
  | zero => exact lifts
  | succ count induction =>
      rw [List.range'_succ, List.range'_succ, List.foldl_cons, List.foldl_cons]
      have next : callers.raise (depth + 1) = callers.raise depth + 1 := by
        rw [callers.raise_of_pos positive, callers.raise_of_pos (Nat.succ_pos _)]
        rfl
      rw [← next]
      exact induction (lifts.modifyFrame depth _) (Nat.succ_pos depth)

end LiftScopes

/-! ## Loops -/

variable (callers)

/-- The frames of the callers' loops come first. -/
structure LiftLoops (loops lifted : Loops) : Prop where
  frames : lifted.frames.toList = callers.loops ++ loops.frames.toList.map callers.raiseLoop
  /-- No loop started at the root. -/
  above : ∀ frame ∈ loops.frames, 0 < frame.scopeDepth

variable {callers}

namespace LiftLoops

variable {loops lifted : Loops} (lifts : callers.LiftLoops loops lifted)
include lifts

theorem depth : lifted.depth = callers.loops.length + loops.depth := by
  have lengths := congrArg List.length lifts.frames
  simpa [Loops.depth] using lengths

theorem back? (nonempty : 0 < loops.depth) :
    lifted.frames.back? = loops.frames.back?.map callers.raiseLoop := by
  have filled : loops.frames.toList.map callers.raiseLoop ≠ [] := by
    simpa [Loops.depth, Array.size_pos_iff] using nonempty
  rw [← Array.getLast?_toList, ← Array.getLast?_toList, lifts.frames,
    List.getLast?_append_of_ne_nil _ filled, List.getLast?_map]

theorem innermost? (base : Nat) :
    lifted.innermost? (callers.loops.length + base) =
      (loops.innermost? base).map callers.raiseLoop := by
  unfold Loops.innermost?
  rw [lifts.depth]
  by_cases inside : base < loops.depth
  · rw [if_pos inside, if_pos (Nat.add_lt_add_left inside _),
      lifts.back? (Nat.lt_of_le_of_lt (Nat.zero_le _) inside)]
  · rw [if_neg inside, if_neg (by omega)]
    rfl

omit lifts in
theorem innermost_above (lifts : callers.LiftLoops loops lifted) {base : Nat} {frame : LoopFrame}
    (found : loops.innermost? base = some frame) : 0 < frame.scopeDepth := by
  unfold Loops.innermost? at found
  split at found
  · exact lifts.above frame (Array.mem_of_back? found)
  · cases found

theorem push {frame : LoopFrame} (above : 0 < frame.scopeDepth) :
    callers.LiftLoops (loops.push frame) (lifted.push (callers.raiseLoop frame)) := by
  constructor
  · simp [Loops.push, lifts.frames]
  · intro other member
    rcases Array.mem_push.mp member with old | rfl
    · exact lifts.above other old
    · exact above

theorem pop (nonempty : 0 < loops.depth) : callers.LiftLoops loops.pop lifted.pop := by
  have filled : loops.frames.toList.map callers.raiseLoop ≠ [] := by
    simpa [Loops.depth, Array.size_pos_iff] using nonempty
  constructor
  · simp only [Loops.pop, Array.toList_pop, lifts.frames]
    rw [List.dropLast_append_of_ne_nil filled, List.map_dropLast]
  · intro frame member
    apply lifts.above
    rw [← Array.mem_toList_iff, Loops.pop, Array.toList_pop] at member
    exact Array.mem_toList_iff.mp (List.mem_of_mem_dropLast member)

theorem break? (base : Nat) :
    (loops.break? base = none ∧ lifted.break? (callers.loops.length + base) = none) ∨
      ∃ marked marked', loops.break? base = some marked ∧
        lifted.break? (callers.loops.length + base) = some marked' ∧
          callers.LiftLoops marked marked' ∧ marked.depth = loops.depth := by
  unfold Loops.break?
  rw [lifts.depth]
  by_cases inside : base < loops.depth
  · refine Or.inr ⟨_, _, if_pos inside, if_pos (Nat.add_lt_add_left inside _), ?_, ?_⟩
    · have last : callers.loops.length + loops.depth - 1 =
          callers.loops.length + (loops.depth - 1) := by omega
      constructor
      · rw [Array.toList_modify, Array.toList_modify, lifts.frames, last, modify_append]
        congr 1
        apply List.ext_getElem?
        intro position
        simp only [List.getElem?_map, List.getElem?_modify]
        cases loops.frames.toList[position]? with
        | none => rfl
        | some frame =>
            simp only [Option.map_some]
            split
            · rfl
            · rfl
      · intro frame member
        obtain ⟨position, found⟩ := Array.getElem?_of_mem member
        rw [Array.getElem?_modify] at found
        split at found
        · obtain ⟨old, there, rfl⟩ := Option.map_eq_some_iff.mp found
          exact lifts.above old (Array.mem_of_getElem? there)
        · exact lifts.above frame (Array.mem_of_getElem? found)
    · simp [Loops.depth]
  · exact Or.inl ⟨if_neg inside, if_neg (by omega)⟩

end LiftLoops

/-! ## Calls -/

variable (callers)

/-- The frames of the callers come first, and nothing limits the calls above them. -/
structure LiftCalls (calls lifted : Calls) : Prop where
  frames : lifted.frames.toList = callers.calls ++ calls.frames.toList.map callers.raiseCall
  /-- No call looks names up in the root frame first. -/
  above : ∀ frame ∈ calls.frames, 0 < frame.scopeBase
  unlimited : calls.limit = none

variable {callers}

namespace LiftCalls

variable {calls lifted : Calls} (lifts : callers.LiftCalls calls lifted)
include lifts

theorem depth : lifted.depth = callers.calls.length + calls.depth := by
  have lengths := congrArg List.length lifts.frames
  simpa [Calls.depth] using lengths

theorem current? (inside : 0 < calls.depth) :
    ∃ frame, calls.current? = some frame ∧ lifted.current? = some (callers.raiseCall frame) ∧
      0 < frame.scopeBase := by
  obtain ⟨frame, found⟩ := Calls.current?_of_depth_pos inside
  have filled : calls.frames.toList.map callers.raiseCall ≠ [] := by
    simpa [Calls.depth, Array.size_pos_iff] using inside
  refine ⟨frame, found, ?_, lifts.above frame (Array.mem_of_back? found)⟩
  rw [Calls.current?, ← Array.getLast?_toList] at found ⊢
  rw [lifts.frames, List.getLast?_append_of_ne_nil _ filled, List.getLast?_map, found]
  rfl

theorem scopeFloor (inside : 0 < calls.depth) :
    lifted.scopeFloor = callers.raise calls.scopeFloor ∧ 0 < calls.scopeFloor := by
  obtain ⟨frame, found, found', above⟩ := lifts.current? inside
  simp only [Calls.scopeFloor, found, found']
  exact ⟨rfl, above⟩

theorem loopBase (inside : 0 < calls.depth) :
    lifted.loopBase = callers.loops.length + calls.loopBase := by
  obtain ⟨frame, found, found', _⟩ := lifts.current? inside
  simp only [Calls.loopBase, found, found']
  rfl

theorem hasReturned (inside : 0 < calls.depth) : lifted.hasReturned = calls.hasReturned := by
  obtain ⟨frame, found, found', _⟩ := lifts.current? inside
  simp only [Calls.hasReturned, found, found']
  rfl

theorem push {frame : CallFrame} (above : 0 < frame.scopeBase) :
    callers.LiftCalls (calls.push frame) (lifted.push (callers.raiseCall frame)) := by
  refine ⟨?_, ?_, lifts.unlimited⟩
  · simp [Calls.push, lifts.frames]
  · intro other member
    rcases Array.mem_push.mp member with old | rfl
    · exact lifts.above other old
    · exact above

theorem pop (inside : 0 < calls.depth) : callers.LiftCalls calls.pop lifted.pop := by
  have filled : calls.frames.toList.map callers.raiseCall ≠ [] := by
    simpa [Calls.depth, Array.size_pos_iff] using inside
  refine ⟨?_, ?_, lifts.unlimited⟩
  · simp only [Calls.pop, Array.toList_pop, lifts.frames]
    rw [List.dropLast_append_of_ne_nil filled, List.map_dropLast]
  · intro frame member
    apply lifts.above
    rw [← Array.mem_toList_iff, Calls.pop, Array.toList_pop] at member
    exact Array.mem_toList_iff.mp (List.mem_of_mem_dropLast member)

theorem modifyCurrent (inside : 0 < calls.depth) {frame : CallFrame} (above : 0 < frame.scopeBase) :
    callers.LiftCalls (calls.modifyCurrent fun _ => frame)
      (lifted.modifyCurrent fun _ => callers.raiseCall frame) := by
  have last : callers.calls.length + calls.depth - 1 =
      callers.calls.length + (calls.depth - 1) := by omega
  refine ⟨?_, ?_, lifts.unlimited⟩
  · rw [Calls.modifyCurrent, Calls.modifyCurrent, Array.toList_modify, Array.toList_modify,
      lifts.frames, lifts.depth, last, modify_append]
    congr 1
    apply List.ext_getElem?
    intro position
    simp only [List.getElem?_map, List.getElem?_modify]
    cases calls.frames.toList[position]? with
    | none => rfl
    | some other =>
        simp only [Option.map_some]
        split
        · rfl
        · rfl
  · intro other member
    obtain ⟨position, found⟩ := Array.getElem?_of_mem member
    rw [Calls.modifyCurrent, Array.getElem?_modify] at found
    split at found
    · obtain ⟨old, there, rfl⟩ := Option.map_eq_some_iff.mp found
      exact above
    · exact lifts.above other (Array.mem_of_getElem? found)

end LiftCalls

end Callers

end ScriptEngine
