import ScriptEngine.Proofs.Control.Stacks

/-!
# Alignment of the stacks

Calls record how high the scopes and the loops stood when they were entered, and
loops how high the scopes stood.  These heights agree with each other, and what
is signalled is signalled at the top: to the frames of the innermost loop of the
current call, to that loop, or to that call.
-/

namespace ScriptEngine

/-- The ways in which a completion other than the normal one can be pending. -/
inductive Signal where
  | skip
  | broken
  | returned
deriving DecidableEq

/-- Marking frames leaves the marks that are there. -/
theorem Scopes.marked_skipFrom_iff (scopes : Scopes) (depth position : Nat) :
    (scopes.skipFrom depth).skips[position]? = some true ↔
      position < scopes.depth ∧ (depth ≤ position ∨ scopes.skips[position]? = some true) := by
  rw [skips, skips, List.getElem?_map, List.getElem?_map, getElem?_skipFrom, ← length_frames]
  cases found : scopes.frames[position]? with
  | none =>
      have beyond := Nat.not_lt_of_le (List.getElem?_eq_none_iff.mp found)
      simp [beyond]
  | some frame =>
      have inside := (List.getElem?_eq_some_iff.mp found).1
      by_cases above : depth ≤ position
      · simp [inside, above]
      · simp [inside, above]

namespace State

variable {state after : State}

/-- The heights that are recorded agree with each other and with the stacks.  A
call separates the loops that were there from those that are entered in it. -/
structure Stacked (state : State) : Prop where
  calls : state.calls.frames.toList.Pairwise fun outer inner =>
    outer.scopeBase < inner.scopeBase ∧ outer.loopBase ≤ inner.loopBase
  loops : state.loops.depths.Pairwise (· < ·)
  bases : ∀ call ∈ state.calls.frames,
    call.scopeBase ≤ state.scopes.depth ∧ call.loopBase ≤ state.loops.depth
  depths : ∀ depth ∈ state.loops.depths, 1 ≤ depth ∧ depth ≤ state.scopes.depth
  apart : ∀ call ∈ state.calls.frames, ∀ index depth,
    state.loops.depths[index]? = some depth →
      (call.loopBase ≤ index → call.scopeBase < depth) ∧
      (index < call.loopBase → depth ≤ call.scopeBase)

def Pending (state : State) : Signal → Prop
  | .skip => true ∈ state.scopes.skips
  | .broken => ∃ frame ∈ state.loops.frames, frame.broken = true
  | .returned => ∃ frame ∈ state.calls.frames, frame.returned = true

def Quiet (state : State) : Prop :=
  ∀ signal, ¬ state.Pending signal

/-- What is pending is of one kind, and at the top of its stack. -/
structure Aligned (state : State) : Prop extends state.Stacked where
  single : ∀ first second, state.Pending first → state.Pending second → first = second
  /-- The frames that are skipped are all those from some frame on, which is an
  iteration of the innermost loop of the current call or lies within one. -/
  skip : ∀ position, state.scopes.skips[position]? = some true →
    state.calls.scopeFloor < position ∧
    (∃ floor, state.loopFloor? = some floor ∧ floor ≤ position) ∧
    ∀ higher, position ≤ higher → higher < state.scopes.depth →
      state.scopes.skips[higher]? = some true
  broken : ∀ index frame, state.loops.frames[index]? = some frame → frame.broken = true →
    state.calls.loopBase ≤ index ∧ index + 1 = state.loops.depth
  returned : ∀ index frame, state.calls.frames[index]? = some frame → frame.returned = true →
    index + 1 = state.calls.depth

namespace Stacked

/-- Nothing else matters than how high the stacks are and what was recorded. -/
theorem congr (stacked : state.Stacked) (depth : after.scopes.depth = state.scopes.depth)
    (loops : after.loops.depths = state.loops.depths)
    (calls : after.calls.entered = state.calls.entered) : after.Stacked := by
  have same : after.calls.frames.toList.map (·.entered) =
      state.calls.frames.toList.map (·.entered) := by
    have frames := congrArg (·.frames.toList) calls
    simpa [Calls.entered] using frames
  have recorded : ∀ {call : CallFrame}, call ∈ after.calls.frames →
      ∃ old ∈ state.calls.frames, old.entered = call.entered := by
    intro call member
    have listed : call.entered ∈ state.calls.frames.toList.map (·.entered) := by
      rw [← same]
      exact List.mem_map_of_mem member.val
    obtain ⟨old, found, equal⟩ := List.mem_map.mp listed
    exact ⟨old, ⟨found⟩, equal⟩
  have lengths : after.loops.depth = state.loops.depth := by
    rw [← Loops.length_depths, loops, Loops.length_depths]
  constructor
  · have entered : (state.calls.frames.toList.map (·.entered)).Pairwise fun outer inner =>
        outer.scopeBase < inner.scopeBase ∧ outer.loopBase ≤ inner.loopBase :=
      List.pairwise_map.mpr stacked.calls
    rw [← same] at entered
    exact List.pairwise_map.mp entered
  · rw [loops]
    exact stacked.loops
  · intro call member
    obtain ⟨old, found, equal⟩ := recorded member
    have bases := stacked.bases old found
    rw [depth, lengths]
    exact ⟨congrArg (·.scopeBase) equal ▸ bases.1, congrArg (·.loopBase) equal ▸ bases.2⟩
  · rw [loops, depth]
    exact stacked.depths
  · intro call member
    obtain ⟨old, found, equal⟩ := recorded member
    have scopeBase : old.scopeBase = call.scopeBase := congrArg (·.scopeBase) equal
    have loopBase : old.loopBase = call.loopBase := congrArg (·.loopBase) equal
    rw [loops, ← scopeBase, ← loopBase]
    exact stacked.apart old found

variable (stacked : state.Stacked)
include stacked

theorem scopeFloor_le : state.calls.scopeFloor ≤ state.scopes.depth := by
  unfold Calls.scopeFloor
  split
  · rename_i frame current
    exact (stacked.bases frame (Array.mem_of_back? current)).1
  · exact Nat.zero_le _

/-- Calls begin no higher than the current one. -/
theorem scopeBase_le {call : CallFrame} (member : call ∈ state.calls.frames) :
    call.scopeBase ≤ state.calls.scopeFloor := by
  cases current : state.calls.current? with
  | none =>
      have empty := Array.back?_eq_none_iff.mp current
      simp [empty] at member
  | some frame =>
      obtain ⟨others, split⟩ := Array.back?_eq_some_iff.mp current
      have ordered := stacked.calls
      rw [split, Array.toList_push, List.pairwise_append] at ordered
      rw [split, Array.mem_push] at member
      rw [Calls.scopeFloor, current]
      rcases member with lower | rfl
      · exact (ordered.2.2 call lower.val frame List.mem_cons_self).1.le
      · exact Nat.le_refl _

theorem above_floor {index depth : Nat} (found : state.loops.depths[index]? = some depth)
    (own : state.calls.loopBase ≤ index) : state.calls.scopeFloor < depth := by
  cases current : state.calls.current? with
  | none =>
      rw [Calls.scopeFloor, current]
      exact (stacked.depths depth (List.mem_of_getElem? found)).1
  | some frame =>
      rw [Calls.loopBase, current] at own
      rw [Calls.scopeFloor, current]
      exact (stacked.apart frame (Array.mem_of_back? current) index depth found).1 own

theorem le_floor {index depth : Nat} (found : state.loops.depths[index]? = some depth)
    (outside : index < state.calls.loopBase) : depth ≤ state.calls.scopeFloor := by
  cases current : state.calls.current? with
  | none =>
      rw [Calls.loopBase, current] at outside
      exact absurd outside (Nat.not_lt_zero _)
  | some frame =>
      rw [Calls.loopBase, current] at outside
      rw [Calls.scopeFloor, current]
      exact (stacked.apart frame (Array.mem_of_back? current) index depth found).2 outside

/-- The innermost loop of the current call is the last one of all. -/
theorem of_loopFloor? {floor : Nat} (innermost : state.loopFloor? = some floor) :
    state.calls.scopeFloor < floor ∧ floor ≤ state.scopes.depth ∧
      ∀ depth ∈ state.loops.depths, depth ≤ floor := by
  rw [loopFloor?, Loops.innermost?_eq] at innermost
  split at innermost
  · rename_i own
    have last : state.loops.depths[state.loops.depths.length - 1]? = some floor := by
      rw [← List.getLast?_eq_getElem?, innermost]
    refine ⟨stacked.above_floor last (Nat.le_sub_one_of_lt own),
      (stacked.depths floor (List.mem_of_getElem? last)).2, ?_⟩
    intro depth member
    obtain ⟨others, split⟩ := List.getLast?_eq_some_iff.mp innermost
    have ordered := stacked.loops
    rw [split, List.pairwise_append] at ordered
    rw [split, List.mem_append, List.mem_singleton] at member
    rcases member with lower | rfl
    · exact (ordered.2.2 depth lower floor (List.mem_singleton_self _)).le
    · exact Nat.le_refl _
  · simp at innermost

/-! ### What is pushed -/

theorem pushScope : State.Stacked { state with scopes := state.scopes.push } where
  calls := stacked.calls
  loops := stacked.loops
  bases call member := by
    rw [Scopes.depth_push]
    exact ⟨Nat.le_succ_of_le (stacked.bases call member).1, (stacked.bases call member).2⟩
  depths depth member := by
    rw [Scopes.depth_push]
    exact ⟨(stacked.depths depth member).1, Nat.le_succ_of_le (stacked.depths depth member).2⟩
  apart := stacked.apart

section

variable (inside : state.calls.scopeFloor < state.scopes.depth)
include inside

/-- Within an iteration, all loops lie below the frames there are. -/
theorem lt_depth (within : ∀ floor, state.loopFloor? = some floor → floor < state.scopes.depth)
    {depth : Nat} (member : depth ∈ state.loops.depths) : depth < state.scopes.depth := by
  obtain ⟨index, found⟩ := List.mem_iff_getElem?.mp member
  by_cases outside : index < state.calls.loopBase
  · exact Nat.lt_of_le_of_lt (stacked.le_floor found outside) inside
  · have own : state.calls.loopBase < state.loops.depths.length :=
      Nat.lt_of_le_of_lt (Nat.le_of_not_lt outside) (List.getElem?_eq_some_iff.mp found).1
    cases last : state.loops.depths.getLast? with
    | none =>
        rw [List.getLast?_eq_none_iff.mp last] at member
        exact absurd member List.not_mem_nil
    | some floor =>
        have innermost : state.loopFloor? = some floor := by
          rw [loopFloor?, Loops.innermost?_eq, if_pos own, last]
        exact Nat.lt_of_le_of_lt ((stacked.of_loopFloor? innermost).2.2 depth member)
          (within floor innermost)

theorem pushLoop
    (within : ∀ floor, state.loopFloor? = some floor → floor < state.scopes.depth) :
    State.Stacked { state with loops := state.loops.push { scopeDepth := state.scopes.depth } } where
  calls := stacked.calls
  loops := by
    rw [Loops.depths_push, List.pairwise_append]
    refine ⟨stacked.loops, List.pairwise_singleton _ _, ?_⟩
    intro depth member last equal
    rw [List.mem_singleton.mp equal]
    exact stacked.lt_depth inside within member
  bases call member := by
    refine ⟨(stacked.bases call member).1, ?_⟩
    simpa [Loops.depth, Loops.push] using Nat.le_succ_of_le (stacked.bases call member).2
  depths depth member := by
    rw [Loops.depths_push, List.mem_append, List.mem_singleton] at member
    rcases member with old | rfl
    · exact stacked.depths depth old
    · exact ⟨Nat.one_le_of_lt inside, Nat.le_refl _⟩
  apart call member index depth found := by
    rw [Loops.depths_push, List.getElem?_append] at found
    split at found
    · exact stacked.apart call member index depth found
    · rename_i beyond
      have last := List.mem_singleton.mp (List.mem_of_getElem? found)
      rw [Loops.length_depths] at beyond
      rw [last]
      refine ⟨fun _ => Nat.lt_of_le_of_lt (stacked.scopeBase_le member) inside, ?_⟩
      intro outside
      exact absurd (Nat.lt_of_lt_of_le outside (stacked.bases call member).2) beyond

/-- A call that is entered lies above everything. -/
theorem enter (function : Function) (callSite : Span) :
    (state.enter function callSite).Stacked where
  calls := by
    simp only [State.enter, Calls.push, Array.toList_push, List.pairwise_append,
      List.mem_singleton, forall_eq]
    refine ⟨stacked.calls, List.pairwise_singleton _ _, ?_⟩
    intro outer member
    exact ⟨Nat.lt_of_le_of_lt (stacked.scopeBase_le ⟨member⟩) inside,
      (stacked.bases outer ⟨member⟩).2⟩
  loops := stacked.loops
  bases call member := by
    rcases Array.mem_push.mp member with old | rfl
    · exact stacked.bases call old
    · exact ⟨Nat.le_refl _, Nat.le_refl _⟩
  depths := stacked.depths
  apart call member index depth found := by
    rcases Array.mem_push.mp member with old | rfl
    · exact stacked.apart call old index depth found
    · refine ⟨?_, fun _ => (stacked.depths depth (List.mem_of_getElem? found)).2⟩
      intro beyond
      have bounded := (List.getElem?_eq_some_iff.mp found).1
      rw [Loops.length_depths] at bounded
      exact absurd bounded (Nat.not_lt_of_le beyond)

end

end Stacked

/-! ## Signals -/

/-- Stacks without a signal. -/
structure Settled (state : State) : Prop extends state.Stacked where
  quiet : state.Quiet

namespace Settled

variable (settled : state.Settled)
include settled

theorem not_skipped {position : Nat} : state.scopes.skips[position]? ≠ some true :=
  fun marked => settled.quiet .skip (List.mem_of_getElem? marked)

theorem not_broken {index : Nat} {frame : LoopFrame}
    (found : state.loops.frames[index]? = some frame) : frame.broken = false :=
  Bool.eq_false_iff.mpr fun broken =>
    settled.quiet .broken ⟨frame, Array.mem_of_getElem? found, broken⟩

theorem not_returned {index : Nat} {frame : CallFrame}
    (found : state.calls.frames[index]? = some frame) : frame.returned = false :=
  Bool.eq_false_iff.mpr fun returned =>
    settled.quiet .returned ⟨frame, Array.mem_of_getElem? found, returned⟩

theorem aligned : state.Aligned where
  toStacked := settled.toStacked
  single first _ pending _ := absurd pending (settled.quiet first)
  skip _ marked := absurd marked settled.not_skipped
  broken _ _ found broken := absurd broken (by simp [settled.not_broken found])
  returned _ _ found returned := absurd returned (by simp [settled.not_returned found])

theorem congr (same : state.SameControl after) : after.Settled where
  toStacked := settled.toStacked.congr same.depth (by rw [same.loops]) (by rw [same.calls])
  quiet signal pending := by
    apply settled.quiet signal
    cases signal with
    | skip =>
        rw [Pending, same.skips] at pending
        exact pending
    | broken =>
        rw [Pending, same.loops] at pending
        exact pending
    | returned =>
        rw [Pending, same.calls] at pending
        exact pending

theorem raise_broken (possible : Completion.broken.Possible state) :
    (state.raise .broken).Aligned := by
  obtain ⟨marked, broken⟩ := Option.isSome_iff_exists.mp (Loops.break?_isSome_iff.mpr possible)
  have raised : state.raise .broken = { state with loops := marked } := by
    simp only [raise, broken, Option.getD_some]
  have only : ∀ signal, State.Pending { state with loops := marked } signal →
      signal = .broken := by
    intro signal pending
    cases signal with
    | skip => exact absurd pending (settled.quiet .skip)
    | broken => rfl
    | returned => exact absurd pending (settled.quiet .returned)
  have same : marked.depth = state.loops.depth := by
    rw [← Loops.length_depths, Loops.depths_of_break? broken, Loops.length_depths]
  rw [raised]
  constructor
  · exact settled.toStacked.congr rfl (Loops.depths_of_break? broken) rfl
  · intro first second left right
    rw [only first left, only second right]
  · exact fun position marked => absurd marked settled.not_skipped
  · intro index frame found stops
    unfold Loops.break? at broken
    split at broken
    · rename_i own
      cases broken
      rw [Array.getElem?_modify] at found
      split at found
      · rename_i last
        rw [same, ← last]
        have own : state.calls.loopBase < state.loops.depth := own
        exact ⟨Nat.le_sub_one_of_lt own, Nat.sub_add_cancel (Nat.one_le_of_lt own)⟩
      · exact absurd stops (by simp [settled.not_broken found])
    · simp at broken
  · exact fun _ _ found returned => absurd returned (by simp [settled.not_returned found])

theorem raise_continued (possible : Completion.continued.Possible state) :
    (state.raise .continued).Aligned := by
  obtain ⟨frame, innermost⟩ := Option.isSome_iff_exists.mp possible
  have floor : state.loopFloor? = some frame.scopeDepth := by
    rw [loopFloor?, innermost, Option.map_some]
  have raised : state.raise .continued =
      { state with scopes := state.scopes.skipFrom frame.scopeDepth } := by
    simp only [raise, innermost]
  have marks : ∀ position, (state.scopes.skipFrom frame.scopeDepth).skips[position]? = some true ↔
      position < state.scopes.depth ∧ frame.scopeDepth ≤ position := by
    intro position
    rw [Scopes.marked_skipFrom_iff]
    simp [settled.not_skipped]
  have only : ∀ signal,
      State.Pending { state with scopes := state.scopes.skipFrom frame.scopeDepth } signal →
        signal = .skip := by
    intro signal pending
    cases signal with
    | skip => rfl
    | broken => exact absurd pending (settled.quiet .broken)
    | returned => exact absurd pending (settled.quiet .returned)
  rw [raised]
  constructor
  · exact settled.toStacked.congr (Scopes.depth_skipFrom _ _) rfl rfl
  · intro first second left right
    rw [only first left, only second right]
  · intro position marked
    obtain ⟨inside, above⟩ := (marks position).mp marked
    refine ⟨Nat.lt_of_lt_of_le (settled.of_loopFloor? floor).1 above,
      ⟨frame.scopeDepth, floor, above⟩, ?_⟩
    intro higher beyond below
    rw [Scopes.depth_skipFrom] at below
    exact (marks higher).mpr ⟨below, above.trans beyond⟩
  · exact fun _ _ found broken => absurd broken (by simp [settled.not_broken found])
  · exact fun _ _ found returned => absurd returned (by simp [settled.not_returned found])

theorem raise_returned {value : Address} (possible : (Completion.returned value).Possible state) :
    (state.raise (.returned value)).Aligned := by
  obtain ⟨frame, current⟩ := Option.isSome_iff_exists.mp possible
  have entered := Calls.entered_modifyCurrent
    (fun frame => { frame with result := some value, returned := true }) current rfl
  have only : ∀ signal, (state.raise (.returned value)).Pending signal → signal = .returned := by
    intro signal pending
    cases signal with
    | skip => exact absurd pending (settled.quiet .skip)
    | broken => exact absurd pending (settled.quiet .broken)
    | returned => rfl
  constructor
  · exact settled.toStacked.congr rfl rfl entered
  · intro first second left right
    rw [only first left, only second right]
  · exact fun position marked => absurd marked settled.not_skipped
  · exact fun _ _ found broken => absurd broken (by simp [settled.not_broken found])
  · intro index frame found returned
    simp only [raise, Calls.modifyCurrent, Array.getElem?_modify] at found
    split at found
    · rename_i last
      obtain ⟨old, there, _⟩ := Option.map_eq_some_iff.mp found
      have inside := (Array.getElem?_eq_some_iff.mp there).1
      simp only [raise, Calls.depth_modifyCurrent]
      simp only [Calls.depth] at last ⊢
      omega
    · exact absurd returned (by simp [settled.not_returned found])

/-- Whatever a completion signals is at the top. -/
theorem raise {completion : Completion} (possible : completion.Possible state) :
    (state.raise completion).Aligned := by
  cases completion with
  | normal => exact settled.aligned
  | broken => exact settled.raise_broken possible
  | continued => exact settled.raise_continued possible
  | returned value => exact settled.raise_returned possible

/-- A frame that is pushed skips nothing. -/
theorem pushScope : State.Settled { state with scopes := state.scopes.push } where
  toStacked := settled.toStacked.pushScope
  quiet signal pending := by
    apply settled.quiet signal
    cases signal with
    | skip => simpa [Pending, Scopes.skips_push] using pending
    | broken => exact pending
    | returned => exact pending

theorem pushLoop (inside : state.calls.scopeFloor < state.scopes.depth)
    (within : ∀ floor, state.loopFloor? = some floor → floor < state.scopes.depth) :
    State.Settled { state with loops := state.loops.push { scopeDepth := state.scopes.depth } } where
  toStacked := settled.toStacked.pushLoop inside within
  quiet signal pending := by
    apply settled.quiet signal
    cases signal with
    | skip => exact pending
    | broken =>
        obtain ⟨frame, member, broken⟩ := pending
        rcases Array.mem_push.mp member with old | rfl
        · exact ⟨frame, old, broken⟩
        · simp at broken
    | returned => exact pending

theorem enter (inside : state.calls.scopeFloor < state.scopes.depth) (function : Function)
    (callSite : Span) : (state.enter function callSite).Settled where
  toStacked := settled.toStacked.enter inside function callSite
  quiet signal pending := by
    apply settled.quiet signal
    cases signal with
    | skip => exact pending
    | broken => exact pending
    | returned =>
        obtain ⟨frame, member, returned⟩ := pending
        rcases Array.mem_push.mp member with old | rfl
        · exact ⟨frame, old, returned⟩
        · simp at returned

end Settled

end State

end ScriptEngine
