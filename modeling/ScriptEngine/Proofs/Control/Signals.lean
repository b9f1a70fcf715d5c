import ScriptEngine.Proofs.Control.Structured
import ScriptEngine.Proofs.Custody.Calls

/-!
# Signals

Every completion is signalled by a flag: of scope frames, of a loop frame or
of a call frame.  Where nothing is pending, a flag says exactly which
completion it stands for, and it is gone with the frame it is raised on.
-/

namespace ScriptEngine

/-! ## Flags that are raised on stacks -/

namespace Loops

variable {loops : Loops} {base : Nat}

theorem innermost?_of_break? {marked : Loops} (broken : loops.break? base = some marked) :
    ∃ frame, marked.innermost? base = some frame ∧ frame.broken = true := by
  unfold break? at broken
  split at broken
  · rename_i inside
    cases broken
    have bounded : base < loops.frames.size := inside
    have last : loops.frames.size - 1 < loops.frames.size := by omega
    refine ⟨{ loops.frames[loops.frames.size - 1] with broken := true }, ?_, rfl⟩
    unfold innermost?
    rw [if_pos (by simpa [depth] using inside), Array.back?_eq_getElem?]
    simp [depth, last, Array.getElem_modify]
  · simp at broken

theorem break?_isSome_iff : (loops.break? base).isSome ↔ (loops.innermost? base).isSome := by
  unfold break? innermost?
  split
  · rename_i inside
    have nonempty : loops.frames.size ≠ 0 := by
      have bounded : base < loops.frames.size := inside
      omega
    simpa [Array.back?_eq_getElem?] using Nat.sub_lt (Nat.pos_of_ne_zero nonempty) Nat.one_pos
  · simp

theorem pop_break? {marked : Loops} (broken : loops.break? base = some marked) :
    marked.pop = loops.pop := by
  unfold break? at broken
  split at broken
  · cases broken
    simp only [pop, depth]
    congr 1
    apply Array.ext_getElem?
    intro position
    simp only [Array.getElem?_pop, Array.size_modify, Array.getElem?_modify]
    split
    · rename_i inside
      rw [if_neg (by omega)]
    · rfl
  · simp at broken

theorem innermost?_push (loops : Loops) (frame : LoopFrame) {found : LoopFrame}
    (innermost : (loops.push frame).innermost? base = some found) : found = frame := by
  unfold innermost? at innermost
  split at innermost
  · simpa [push] using innermost.symm
  · simp at innermost

end Loops

namespace Scopes

variable {scopes : Scopes}

theorem innermost_eq (scopes : Scopes) : scopes.frames.getLast? = some scopes.innermost := by
  unfold innermost frames
  cases last : scopes.nested.back? with
  | none =>
      have empty := Array.back?_eq_none_iff.mp last
      simp [empty]
  | some frame =>
      obtain ⟨others, split⟩ := Array.back?_eq_some_iff.mp last
      simp [split, List.getLast?_cons]

theorem length_frames (scopes : Scopes) : scopes.frames.length = scopes.depth := by
  simp [frames, depth]

theorem length_skips (scopes : Scopes) : scopes.skips.length = scopes.depth := by
  simp [skips, length_frames]

/-- What the innermost frame skips can be read off all the frames. -/
theorem skips_getLast? (scopes : Scopes) :
    scopes.skips.getLast? = some scopes.innermost.skipsRest := by
  rw [skips, List.getLast?_map, innermost_eq]
  rfl

theorem skips_push (scopes : Scopes) : scopes.push.skips = scopes.skips ++ [false] := by
  simp [skips]

theorem depth_push (scopes : Scopes) : scopes.push.depth = scopes.depth + 1 := by
  simp [push, depth]

theorem innermost_push (scopes : Scopes) : scopes.push.innermost = {} := by
  simp [push, innermost]

theorem innermost_skipFrom {depth : Nat} (inside : depth < scopes.depth) :
    (scopes.skipFrom depth).innermost.skipsRest = true := by
  have before := innermost_eq scopes
  have after := innermost_eq (scopes.skipFrom depth)
  rw [List.getLast?_eq_getElem?, length_frames] at before after
  rw [depth_skipFrom, getElem?_skipFrom, before, Option.map_some, if_pos (by omega),
    Option.some.injEq] at after
  rw [← after]

/-- Frames above all the frames there are. -/
theorem skipFrom_of_le {depth : Nat} (beyond : scopes.depth ≤ depth) :
    scopes.skipFrom depth = scopes := by
  have none : scopes.depth - depth = 0 := by omega
  simp [skipFrom, none]

theorem eq_push_of_frames {lower : Scopes} {frame : ScopeFrame}
    (split : scopes.frames = lower.frames ++ [frame]) :
    scopes = { lower with nested := lower.nested.push frame } := by
  obtain ⟨root, nested⟩ := scopes
  simp only [frames, List.cons_append, List.cons.injEq] at split
  obtain ⟨rfl, rest⟩ := split
  have same : nested = lower.nested.push frame := by
    rw [← Array.toList_inj, rest, Array.toList_push]
  rw [same]

theorem frames_skipFrom_of_back? {frame : ScopeFrame}
    (last : scopes.nested.back? = some frame) (depth : Nat) :
    ∃ marked : ScopeFrame, marked.values = frame.values ∧
      (scopes.skipFrom depth).frames = (scopes.dropFrame.skipFrom depth).frames ++ [marked] := by
  refine ⟨if depth ≤ scopes.dropFrame.depth then { frame with skipsRest := true } else frame,
    ?_, ?_⟩
  · split
    · rfl
    · rfl
  · apply List.ext_getElem?
    intro position
    rw [getElem?_skipFrom, frames_dropFrame last, List.getElem?_append, List.getElem?_append,
      length_frames, length_frames, depth_skipFrom]
    by_cases lower : position < scopes.dropFrame.depth
    · rw [if_pos lower, if_pos lower, getElem?_skipFrom]
    · rw [if_neg lower, if_neg lower]
      by_cases equal : position = scopes.dropFrame.depth
      · subst equal
        simp
      · have beyond : position - scopes.dropFrame.depth ≠ 0 := by omega
        simp [beyond]

/-- Marking frames and removing the innermost one go either way round. -/
theorem pop_skipFrom (scopes : Scopes) (depth : Nat) (heap : Heap) :
    (scopes.skipFrom depth).pop heap =
      ((scopes.pop heap).1.skipFrom depth, (scopes.pop heap).2) := by
  cases last : scopes.nested.back? with
  | none =>
      have single : scopes.nested = #[] := Array.back?_eq_none_iff.mp last
      have still : (scopes.skipFrom depth).nested.back? = none := by
        have counted := depth_skipFrom scopes depth
        simp only [Scopes.depth, single, List.size_toArray, List.length_nil] at counted
        rw [Array.back?_eq_none_iff, ← Array.size_eq_zero_iff]
        omega
      rw [pop_of_root still, pop_of_root last]
  | some frame =>
      obtain ⟨marked, values, split⟩ := frames_skipFrom_of_back? last depth
      have pushed := eq_push_of_frames split
      have still : (scopes.skipFrom depth).nested.back? = some marked := by
        rw [pushed]
        simp
      have dropped : (scopes.skipFrom depth).dropFrame = scopes.dropFrame.skipFrom depth := by
        rw [pushed]
        simp [dropFrame]
      rw [pop_of_back? still, pop_of_back? last, dropped, values]

end Scopes

namespace Calls

variable {calls : Calls}

theorem current?_push (calls : Calls) (frame : CallFrame) :
    (calls.push frame).current? = some frame := by
  simp [push, current?]

theorem pop_push (calls : Calls) (frame : CallFrame) : (calls.push frame).pop = calls := by
  simp [push, pop]

theorem current?_modifyCurrent (calls : Calls) (change : CallFrame → CallFrame) :
    (calls.modifyCurrent change).current? = calls.current?.map change := by
  cases found : calls.current? with
  | none =>
      have empty := Array.back?_eq_none_iff.mp found
      simp [modifyCurrent, current?, empty]
  | some frame =>
      rw [modifyCurrent_of_current? found, current?_push]
      rfl

theorem pop_modifyCurrent (calls : Calls) (change : CallFrame → CallFrame) :
    (calls.modifyCurrent change).pop = calls.pop := by
  cases found : calls.current? with
  | none =>
      have empty := Array.back?_eq_none_iff.mp found
      simp [modifyCurrent, pop, empty]
  | some frame => rw [modifyCurrent_of_current? found, pop_push]

end Calls

/-! ## Completions and the flags that signal them -/

namespace State

/-- The state in which the body of a function begins that is called. -/
def enter (state : State) (function : Function) (callSite : Span) : State :=
  { state with
    calls := state.calls.push {
      function := function.name
      callSite := callSite
      scopeBase := state.scopes.depth
      loopBase := state.loops.depth } }

/-- Signal a completion. -/
def raise (state : State) : Completion → State
  | .normal => state
  | .broken =>
      { state with loops := (state.loops.break? state.calls.loopBase).getD state.loops }
  | .continued =>
      { state with
        scopes :=
          match state.loops.innermost? state.calls.loopBase with
          | some frame => state.scopes.skipFrom frame.scopeDepth
          | none => state.scopes }
  | .returned value =>
      { state with
        calls := state.calls.modifyCurrent fun frame =>
          { frame with result := some value, returned := true } }

/-- The innermost loop of the current call, and the call itself, are to go
on. -/
structure Calm (state : State) : Prop where
  loop : ∀ frame, state.loops.innermost? state.calls.loopBase = some frame →
    frame.broken = false ∧ frame.scopeDepth ≤ state.scopes.depth
  call : ∀ frame, state.calls.current? = some frame →
    frame.returned = false ∧ frame.result = none

/-- No signal is pending, and the innermost loop has an iteration that is
running. -/
structure Ready (state : State) : Prop extends state.Calm where
  frame : state.scopes.innermost.skipsRest = false
  within : ∀ frame, state.loops.innermost? state.calls.loopBase = some frame →
    frame.scopeDepth < state.scopes.depth

/-- The innermost loop is between two iterations. -/
structure Circling (state : State) : Prop extends state.Calm where
  between : ∀ frame, state.loops.innermost? state.calls.loopBase = some frame →
    state.scopes.depth ≤ frame.scopeDepth

/-- A call that has just been entered: none of the loops is its own. -/
structure Entered (state : State) : Prop extends state.Calm where
  outside : state.loops.innermost? state.calls.loopBase = none
  active : state.calls.current?.isSome

end State

/-- Whether there is something that a completion is meant for. -/
def Completion.Possible (completion : Completion) (state : State) : Prop :=
  match completion with
  | .normal => True
  | .broken => (state.loops.innermost? state.calls.loopBase).isSome
  | .continued => (state.loops.innermost? state.calls.loopBase).isSome
  | .returned _ => state.calls.current?.isSome

namespace State

variable {state after : State}

namespace SameControl

theorem depth (same : state.SameControl after) : after.scopes.depth = state.scopes.depth := by
  rw [← Scopes.length_skips, ← Scopes.length_skips, same.skips]

theorem skipsRest (same : state.SameControl after) :
    after.scopes.innermost.skipsRest = state.scopes.innermost.skipsRest := by
  have last := Scopes.skips_getLast? after.scopes
  rw [same.skips, Scopes.skips_getLast?] at last
  exact (Option.some.inj last).symm

theorem calm (same : state.SameControl after) (calm : state.Calm) : after.Calm := by
  constructor
  · intro frame found
    rw [same.loops, same.calls] at found
    rw [same.depth]
    exact calm.loop frame found
  · intro frame found
    rw [same.calls] at found
    exact calm.call frame found

theorem ready (same : state.SameControl after) (ready : state.Ready) : after.Ready := by
  refine ⟨same.calm ready.toCalm, same.skipsRest.trans ready.frame, ?_⟩
  intro frame found
  rw [same.loops, same.calls] at found
  rw [same.depth]
  exact ready.within frame found

theorem circling (same : state.SameControl after) (circling : state.Circling) :
    after.Circling := by
  refine ⟨same.calm circling.toCalm, ?_⟩
  intro frame found
  rw [same.loops, same.calls] at found
  rw [same.depth]
  exact circling.between frame found

theorem possible (same : state.SameControl after) {completion : Completion}
    (possible : completion.Possible state) : completion.Possible after := by
  cases completion with
  | normal => trivial
  | broken =>
      rw [Completion.Possible, same.loops, same.calls]
      exact possible
  | continued =>
      rw [Completion.Possible, same.loops, same.calls]
      exact possible
  | returned value =>
      rw [Completion.Possible, same.calls]
      exact possible

end SameControl

/-! ## What is pushed -/

theorem Calm.pushScope (calm : state.Calm) :
    State.Ready { state with scopes := state.scopes.push } := by
  refine ⟨⟨?_, calm.call⟩, ?_, ?_⟩
  · intro frame found
    have inner := calm.loop frame found
    refine ⟨inner.1, ?_⟩
    rw [Scopes.depth_push]
    exact Nat.le_succ_of_le inner.2
  · rw [Scopes.innermost_push]
  · intro frame found
    rw [Scopes.depth_push]
    exact Nat.lt_succ_of_le (calm.loop frame found).2

theorem Calm.pushLoop (calm : state.Calm) :
    State.Circling
      { state with loops := state.loops.push { scopeDepth := state.scopes.depth } } := by
  refine ⟨⟨?_, calm.call⟩, ?_⟩
  · intro frame found
    rw [Loops.innermost?_push state.loops _ found]
    exact ⟨rfl, Nat.le_refl _⟩
  · intro frame found
    rw [Loops.innermost?_push state.loops _ found]

theorem entered_enter (state : State) (function : Function) (callSite : Span) :
    (state.enter function callSite).Entered := by
  have outside : (state.enter function callSite).loops.innermost?
      (state.enter function callSite).calls.loopBase = none := by
    rw [enter, Calls.loopBase, Calls.current?_push]
    simp [Loops.innermost?]
  refine ⟨⟨?_, ?_⟩, outside, ?_⟩
  · intro frame found
    rw [outside] at found
    simp at found
  · intro frame current
    rw [enter, Calls.current?_push] at current
    cases current
    exact ⟨rfl, rfl⟩
  · rw [enter, Calls.current?_push]
    rfl

/-! ## Reading the flags -/

theorem Calm.loopFinished (calm : state.Calm) : state.loopFinished = false := by
  unfold State.loopFinished Calls.hasReturned
  cases loop : state.loops.innermost? state.calls.loopBase with
  | none =>
      cases call : state.calls.current? with
      | none => rfl
      | some frame => simp [(calm.call frame call).1]
  | some frame =>
      cases call : state.calls.current? with
      | none => simp [(calm.loop frame loop).1]
      | some current => simp [(calm.loop frame loop).1, (calm.call current call).1]

theorem Calm.loopFinished_raise (calm : state.Calm) {completion : Completion}
    (possible : completion.Possible state) :
    (state.raise completion).loopFinished = !completion.goesOn := by
  cases completion with
  | normal => exact calm.loopFinished
  | broken =>
      obtain ⟨marked, broken⟩ := Option.isSome_iff_exists.mp (Loops.break?_isSome_iff.mpr possible)
      obtain ⟨frame, found, stops⟩ := Loops.innermost?_of_break? broken
      simp [State.loopFinished, raise, broken, found, stops, Completion.goesOn]
  | continued =>
      have finished := calm.loopFinished
      exact finished
  | returned value =>
      obtain ⟨frame, current⟩ := Option.isSome_iff_exists.mp possible
      simp [State.loopFinished, raise, Calls.hasReturned, Calls.current?_modifyCurrent, current,
        Completion.goesOn]

/-- A statement list stops exactly after what is not normal. -/
theorem Ready.hasSignal_raise (ready : state.Ready) {completion : Completion}
    (possible : completion.Possible state) :
    (state.raise completion).hasSignal =
      match completion with
      | .normal => false
      | _ => true := by
  have finished := ready.loopFinished_raise possible
  rw [hasSignal, finished]
  cases completion with
  | normal => simp [raise, ready.frame, Completion.goesOn]
  | broken => simp [Completion.goesOn]
  | continued =>
      obtain ⟨frame, found⟩ := Option.isSome_iff_exists.mp possible
      simp [raise, found, Scopes.innermost_skipFrom (ready.within frame found)]
  | returned value => simp [Completion.goesOn]

/-! ## Signals and what else happens to a state -/

/-- Between iterations there is no frame left to skip. -/
theorem Circling.raise_continued (circling : state.Circling) :
    state.raise .continued = state := by
  simp only [raise]
  split
  · rename_i frame found
    rw [Scopes.skipFrom_of_le (circling.between frame found)]
  · rfl

theorem raise_onHeap (change : Heap → Heap) (completion : Completion) :
    { state.raise completion with heap := change (state.raise completion).heap } =
      State.raise { state with heap := change state.heap } completion := by
  cases completion with
  | normal => rfl
  | broken => rfl
  | continued => rfl
  | returned value => rfl

theorem raise_popScope (completion : Completion) :
    ((state.raise completion).onStorage fun scopes heap => ((), scopes.pop heap)).2 =
      ((state.onStorage fun scopes heap => ((), scopes.pop heap)).2).raise completion := by
  cases completion with
  | normal => rfl
  | broken => rfl
  | continued =>
      simp only [raise, onStorage]
      split
      · rw [Scopes.pop_skipFrom]
      · rfl
  | returned value => rfl

/-- The flag of a loop that is left is gone. -/
theorem raise_popLoop (circling : state.Circling) (completion : Completion) :
    { state.raise completion with loops := (state.raise completion).loops.pop } =
      State.raise { state with loops := state.loops.pop } completion.afterLoop := by
  cases completion with
  | normal => rfl
  | broken =>
      simp only [raise, Completion.afterLoop]
      cases broken : state.loops.break? state.calls.loopBase with
      | none => rfl
      | some marked =>
          rw [Option.getD_some, Loops.pop_break? broken]
  | continued =>
      rw [circling.raise_continued]
      rfl
  | returned value => rfl

end State

end ScriptEngine
