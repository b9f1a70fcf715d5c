import ScriptEngine.Proofs.Control.Lockstep
import ScriptEngine.Proofs.Control.Signals

/-!
# Stacks

However an evaluation ends, the stacks of scopes, loops and calls are as high
as they were.  An expression binds no name and marks no frame.  A block can
mark the frames of the iteration that it is run in, and a statement can also
bind names in the innermost frame.
-/

namespace ScriptEngine

open Evaluation

/-- The depths at which loops iterate, without what is marked in them. -/
def Loops.depths (loops : Loops) : List Nat :=
  loops.frames.toList.map (·.scopeDepth)

/-- A call as it was when it was entered. -/
def CallFrame.entered (frame : CallFrame) : CallFrame :=
  { frame with result := none, returned := false }

def Calls.entered (calls : Calls) : Calls :=
  { calls with frames := calls.frames.map (·.entered) }

namespace Loops

variable {loops : Loops}

theorem length_depths (loops : Loops) : loops.depths.length = loops.depth := by
  simp [depths, depth]

theorem innermost?_eq (loops : Loops) (base : Nat) :
    (loops.innermost? base).map (·.scopeDepth) =
      if base < loops.depths.length then loops.depths.getLast? else none := by
  rw [length_depths, innermost?]
  split
  · rw [depths, List.getLast?_map, Array.getLast?_toList]
  · rfl

theorem depths_push (loops : Loops) (frame : LoopFrame) :
    (loops.push frame).depths = loops.depths ++ [frame.scopeDepth] := by
  simp [depths, push]

theorem depths_pop (loops : Loops) : loops.pop.depths = loops.depths.dropLast := by
  simp [depths, pop]

theorem depths_of_break? {base : Nat} {marked : Loops} (broken : loops.break? base = some marked) :
    marked.depths = loops.depths := by
  unfold break? at broken
  split at broken
  · cases broken
    apply List.ext_getElem?
    intro position
    simp only [depths, List.getElem?_map, Array.getElem?_toList, Array.getElem?_modify]
    split
    · cases loops.frames[position]? with
      | some frame => rfl
      | none => rfl
    · rfl
  · simp at broken

end Loops

namespace Calls

theorem current?_entered (calls : Calls) :
    calls.entered.current? = calls.current?.map (·.entered) := by
  simp [entered, current?, Array.back?_eq_getElem?]

theorem loopBase_entered (calls : Calls) : calls.entered.loopBase = calls.loopBase := by
  unfold loopBase
  rw [current?_entered]
  cases calls.current? with
  | some frame => rfl
  | none => rfl

theorem entered_push (calls : Calls) (frame : CallFrame) :
    (calls.push frame).entered = calls.entered.push frame.entered := by
  simp [entered, push]

theorem entered_pop (calls : Calls) : calls.pop.entered = calls.entered.pop := by
  simp [entered, pop]

/-- What a call keeps is not part of how it was entered. -/
theorem entered_modifyCurrent {calls : Calls} {frame : CallFrame} (change : CallFrame → CallFrame)
    (current : calls.current? = some frame) (same : (change frame).entered = frame.entered) :
    (calls.modifyCurrent change).entered = calls.entered := by
  unfold modifyCurrent entered
  congr 1
  apply Array.ext_getElem?
  intro position
  simp only [Array.getElem?_map, Array.getElem?_modify]
  split
  · rename_i last
    rw [← last]
    rw [current?, Array.back?_eq_getElem?] at current
    rw [depth, current]
    simp [same]
  · rfl

end Calls

namespace Scopes

variable {scopes : Scopes}

theorem get?_push (scopes : Scopes) (position : Nat) (name : Name) :
    scopes.push.get? position name = scopes.get? position name := by
  rw [get?, get?, frame?_eq, frame?_eq, frames_push]
  by_cases inside : position < scopes.frames.length
  · rw [List.getElem?_append_left inside]
  · have beyond : scopes.frames.length ≤ position := Nat.le_of_not_lt inside
    rw [List.getElem?_append_right beyond, List.getElem?_eq_none beyond]
    cases position - scopes.frames.length with
    | zero => rfl
    | succ index => rfl

theorem get?_dropFrame {frame : ScopeFrame} (last : scopes.nested.back? = some frame)
    {position : Nat} (inside : position < scopes.dropFrame.depth) (name : Name) :
    scopes.dropFrame.get? position name = scopes.get? position name := by
  rw [get?, get?, frame?_eq, frame?_eq, frames_dropFrame last,
    List.getElem?_append_left (by rwa [length_frames])]

theorem skips_dropFrame {frame : ScopeFrame} (last : scopes.nested.back? = some frame) :
    scopes.skips = scopes.dropFrame.skips ++ [frame.skipsRest] := by
  rw [skips, skips, frames_dropFrame last, List.map_append, List.map_singleton]

theorem depth_dropFrame {frame : ScopeFrame} (last : scopes.nested.back? = some frame) :
    scopes.depth = scopes.dropFrame.depth + 1 := by
  rw [← length_frames, ← length_frames, frames_dropFrame last, List.length_append,
    List.length_singleton]

/-- A new frame is not marked. -/
theorem marked_of_push {position : Nat} (marked : scopes.push.skips[position]? = some true) :
    scopes.skips[position]? = some true := by
  rw [skips_push] at marked
  by_cases inside : position < scopes.skips.length
  · rwa [List.getElem?_append_left inside] at marked
  · rw [List.getElem?_append_right (Nat.le_of_not_lt inside)] at marked
    have flag := List.mem_of_getElem? marked
    simp at flag

/-- Above the root there is a frame to drop. -/
theorem exists_back? (nested : 1 < scopes.depth) : ∃ frame, scopes.nested.back? = some frame := by
  cases last : scopes.nested.back? with
  | some frame => exact ⟨frame, rfl⟩
  | none =>
      have empty := Array.back?_eq_none_iff.mp last
      simp [depth, empty] at nested

end Scopes

namespace State

/-- The number of scope frames outside the innermost loop of the current
call. -/
def loopFloor? (state : State) : Option Nat :=
  (state.loops.innermost? state.calls.loopBase).map (·.scopeDepth)

theorem loopFloor?_congr {before after : State} (loops : after.loops.depths = before.loops.depths)
    (calls : after.calls.entered = before.calls.entered) :
    after.loopFloor? = before.loopFloor? := by
  rw [loopFloor?, loopFloor?, Loops.innermost?_eq, Loops.innermost?_eq, loops,
    ← Calls.loopBase_entered, calls, Calls.loopBase_entered]

/-- What an evaluation of some extent may leave behind. -/
structure Keeps (extent : Extent) (before after : State) : Prop where
  depth : after.scopes.depth = before.scopes.depth
  loops : after.loops.depths = before.loops.depths
  calls : after.calls.entered = before.calls.entered
  bound : ∀ position name, before.scopes.binds position name = true →
    after.scopes.binds position name = true
  binds : ∀ position name, after.scopes.binds position name = true →
    before.scopes.binds position name = true ∨
      extent = .statement ∧ position + 1 = before.scopes.depth
  skips : ∀ position, after.scopes.skips[position]? = some true →
    before.scopes.skips[position]? = some true ∨
      extent ≠ .expression ∧ ∃ floor, before.loopFloor? = some floor ∧ floor ≤ position

namespace Keeps

variable {extent : Extent} {first second third : State}

theorem refl (extent : Extent) (state : State) : state.Keeps extent state :=
  ⟨rfl, rfl, rfl, fun _ _ bound => bound, fun _ _ bound => Or.inl bound,
    fun _ marked => Or.inl marked⟩

theorem trans (left : first.Keeps extent second) (right : second.Keeps extent third) :
    first.Keeps extent third := by
  constructor
  · rw [right.depth, left.depth]
  · rw [right.loops, left.loops]
  · rw [right.calls, left.calls]
  · intro position name bound
    exact right.bound position name (left.bound position name bound)
  · intro position name bound
    rcases right.binds position name bound with old | ⟨free, last⟩
    · exact left.binds position name old
    · exact Or.inr ⟨free, by rw [last, left.depth]⟩
  · intro position marked
    rcases right.skips position marked with old | ⟨reaches, floor, found, below⟩
    · exact left.skips position old
    · rw [loopFloor?_congr left.loops left.calls] at found
      exact Or.inr ⟨reaches, floor, found, below⟩

theorem widen (keeps : first.Keeps .expression second) : first.Keeps extent second where
  depth := keeps.depth
  loops := keeps.loops
  calls := keeps.calls
  bound := keeps.bound
  binds position name bound := by
    rcases keeps.binds position name bound with old | ⟨other, _⟩
    · exact Or.inl old
    · exact absurd other (by decide)
  skips position marked := by
    rcases keeps.skips position marked with old | ⟨other, _⟩
    · exact Or.inl old
    · exact absurd rfl other

theorem loosen (keeps : first.Keeps .block second) : first.Keeps .statement second where
  depth := keeps.depth
  loops := keeps.loops
  calls := keeps.calls
  bound := keeps.bound
  binds position name bound := by
    rcases keeps.binds position name bound with old | ⟨other, _⟩
    · exact Or.inl old
    · exact absurd other (by decide)
  skips position marked := by
    rcases keeps.skips position marked with old | ⟨_, marks⟩
    · exact Or.inl old
    · exact Or.inr ⟨by decide, marks⟩

/-- A call that is running still runs. -/
theorem current? (keeps : first.Keeps extent second) {frame : CallFrame}
    (current : first.calls.current? = some frame) :
    ∃ frame, second.calls.current? = some frame := by
  have same := congrArg Calls.current? keeps.calls
  rw [Calls.current?_entered, Calls.current?_entered, current] at same
  obtain ⟨frame, found, _⟩ := Option.map_eq_some_iff.mp same
  exact ⟨frame, found⟩

/-- Nothing else is on a stack. -/
theorem aside (keeps : first.Keeps extent second) (heap : Heap)
    (literals : Array (Option Address)) (output : Output) :
    first.Keeps extent { second with heap := heap, literals := literals, output := output } :=
  ⟨keeps.depth, keeps.loops, keeps.calls, keeps.bound, keeps.binds, keeps.skips⟩

/-- The value of a binding is replaced, or a name is bound in the innermost
frame. -/
theorem put {state : State} {position : Nat} {name : Name} {value : Address}
    (inside : position < state.scopes.depth)
    (allowed : state.scopes.binds position name = true ∨
      extent = .statement ∧ position + 1 = state.scopes.depth) :
    state.Keeps extent
      { state with scopes := state.scopes.modifyFrame position (·.put name value) } where
  depth := Scopes.depth_modifyFrame position _
  loops := rfl
  calls := rfl
  bound position' name' bound := by
    rw [Scopes.binds, Scopes.get?_put position name value inside]
    split
    · rfl
    · exact bound
  binds position' name' bound := by
    rw [Scopes.binds, Scopes.get?_put position name value inside] at bound
    split at bound
    · rename_i same
      rw [same.1, same.2]
      exact allowed
    · exact Or.inl bound
  skips position' marked := by
    left
    rwa [Scopes.skips_put] at marked

section

variable {inner : State}
  (keeps : State.Keeps .statement { first with scopes := first.scopes.push } inner)
include keeps

/-- The frame that was pushed is there to be dropped. -/
theorem dropFrame :
    ∃ frame, inner.scopes.nested.back? = some frame ∧
      inner.scopes.dropFrame.depth = first.scopes.depth ∧
      ((inner.onStorage fun scopes heap => ((), scopes.pop heap)).2).scopes =
        inner.scopes.dropFrame := by
  have higher : inner.scopes.depth = first.scopes.depth + 1 := by
    rw [keeps.depth, Scopes.depth_push]
  have several : 1 < inner.scopes.depth := by
    rw [higher, Scopes.depth]
    omega
  obtain ⟨frame, last⟩ := Scopes.exists_back? several
  refine ⟨frame, last, ?_, ?_⟩
  · have dropped := Scopes.depth_dropFrame last
    omega
  · show (inner.scopes.pop inner.heap).1 = _
    rw [Scopes.pop_of_back? last]

/-- Frames that are left are marked as they were inside. -/
theorem marked_popScope {position : Nat}
    (marked : ((inner.onStorage fun scopes heap => ((), scopes.pop heap)).2).scopes.skips[position]?
      = some true) : inner.scopes.skips[position]? = some true := by
  obtain ⟨frame, last, _, popped⟩ := keeps.dropFrame
  rw [popped] at marked
  rw [Scopes.skips_dropFrame last,
    List.getElem?_append_left (List.getElem?_eq_some_iff.mp marked).1, marked]

/-- A frame of one's own is gone again. -/
theorem popScope :
    first.Keeps .block (inner.onStorage fun scopes heap => ((), scopes.pop heap)).2 := by
  obtain ⟨frame, last, lower, popped⟩ := keeps.dropFrame
  have within : ∀ {scopes : Scopes} {position : Nat} {name : Name},
      scopes.binds position name = true → position < scopes.depth := by
    intro scopes position name bound
    obtain ⟨value, found⟩ := Option.isSome_iff_exists.mp bound
    exact Scopes.lt_depth_of_get? found
  constructor
  · rw [popped, lower]
  · exact keeps.loops
  · exact keeps.calls
  · intro position name bound
    have kept := keeps.bound position name (by rwa [Scopes.binds, Scopes.get?_push])
    rw [popped, Scopes.binds, Scopes.get?_dropFrame last (by
      rw [lower]
      exact within bound)]
    exact kept
  · intro position name bound
    rw [popped] at bound
    have inside := within bound
    rw [Scopes.binds, Scopes.get?_dropFrame last inside] at bound
    rcases keeps.binds position name bound with old | ⟨_, innermost⟩
    · rw [Scopes.binds, Scopes.get?_push] at old
      exact Or.inl old
    · rw [Scopes.depth_push] at innermost
      omega
  · intro position marked
    rcases keeps.skips position (keeps.marked_popScope marked) with old | ⟨_, marks⟩
    · exact Or.inl (Scopes.marked_of_push old)
    · exact Or.inr ⟨by decide, marks⟩

end

theorem popLoop {inner : State} (keeps : State.Keeps .block
      { first with loops := first.loops.push { scopeDepth := first.scopes.depth } } inner) :
    first.Keeps .expression { inner with loops := inner.loops.pop } where
  depth := keeps.depth
  loops := by rw [Loops.depths_pop, keeps.loops, Loops.depths_push, List.dropLast_concat]
  calls := keeps.calls
  bound := keeps.bound
  binds := by
    intro position name bound
    rcases keeps.binds position name bound with old | ⟨other, _⟩
    · exact Or.inl old
    · exact absurd other (by decide)
  skips := by
    intro position marked
    left
    rcases keeps.skips position marked with old | ⟨_, floor, found, below⟩
    · exact old
    · -- the loop lies above every frame that was there
      rw [State.loopFloor?] at found
      obtain ⟨frame, innermost, rfl⟩ := Option.map_eq_some_iff.mp found
      rw [Loops.innermost?_push _ _ innermost] at below
      have inside := (List.getElem?_eq_some_iff.mp marked).1
      rw [Scopes.length_skips, keeps.depth] at inside
      exact absurd below (by simpa using inside)

/-- A call of one's own is gone again. -/
theorem popCall {inner : State} {frame : CallFrame} (base : frame.loopBase = first.loops.depth)
    (keeps : State.Keeps .block { first with calls := first.calls.push frame } inner) :
    first.Keeps .expression { inner with calls := inner.calls.pop } where
  depth := keeps.depth
  loops := keeps.loops
  calls := by
    rw [Calls.entered_pop, keeps.calls, Calls.entered_push, Calls.pop_push]
  bound := keeps.bound
  binds := by
    intro position name bound
    rcases keeps.binds position name bound with old | ⟨other, _⟩
    · exact Or.inl old
    · exact absurd other (by decide)
  skips := by
    intro position marked
    left
    rcases keeps.skips position marked with old | ⟨_, floor, found, below⟩
    · exact old
    · -- no loop has been started in the call
      simp [State.loopFloor?, Calls.loopBase, Calls.current?_push, base, Loops.innermost?] at found

end Keeps

end State

/-- A store puts no name into a frame that the frame does not bind. -/
theorem Place.scopes_store (place : Place) (scopes : Scopes) (heap : Heap) (value : Address) :
    (place.store scopes heap value).2.1 = scopes ∨
      ∃ depth name, scopes.binds depth name = true ∧
        (place.store scopes heap value).2.1 = scopes.modifyFrame depth (·.put name value) := by
  unfold store
  cases loaded : place.load scopes heap with
  | error cause => exact Or.inl rfl
  | ok previous =>
      cases place with
      | binding depth name =>
          right
          refine ⟨depth, name, ?_, rfl⟩
          unfold load at loaded
          cases found : scopes.get? depth name with
          | some value => simp [Scopes.binds, found]
          | none => simp [found] at loaded
      | element vector position =>
          left
          simp only [point]
          split
          · rfl
          · rfl
      | entry dict position =>
          left
          simp only [point]
          split
          · rfl
          · rfl

/-! ## What evaluations leave behind -/

/-- The state in which an evaluation ends, with a value or a failure. -/
def Outcome.state? {α : Type} : Outcome α → Option State
  | .value _ state => some state
  | .failure _ state => some state
  | .stopped _ => none

/-- What holds after a value and after a failure. -/
theorem Evaluation.Triple.of_state? {α : Type} {before ends : State → Prop} {body : Evaluation α}
    {state last : State} (triple : Triple before body (fun _ => ends) ends) (holds : before state)
    (ended : (body state).state? = some last) : ends last := by
  have held := triple state holds
  cases outcome : body state with
  | value result after =>
      rw [outcome] at held ended
      exact Option.some.inj ended ▸ held
  | failure failure after =>
      rw [outcome] at held ended
      exact Option.some.inj ended ▸ held
  | stopped reason => simp [outcome, Outcome.state?] at ended

/-- However the evaluation ends, it leaves behind what its extent allows. -/
def Evaluation.Keeps {α : Type} (extent : Extent) (body : Evaluation α) : Prop :=
  ∀ start : State, Triple (· = start) body (fun _ => start.Keeps extent) (start.Keeps extent)

namespace Evaluation.Keeps

variable {α β : Type} {extent : Extent} {body : Evaluation α}

theorem of_state? {state last : State} (keeps : body.Keeps extent)
    (ended : (body state).state? = some last) : state.Keeps extent last :=
  (keeps state).of_state? rfl ended

theorem of_value {state last : State} {result : α} (keeps : body.Keeps extent)
    (outcome : body state = .value result last) : state.Keeps extent last :=
  keeps.of_state? (by rw [outcome, Outcome.state?])

theorem of_failure {state last : State} {failure : Failure} (keeps : body.Keeps extent)
    (outcome : body state = .failure failure last) : state.Keeps extent last :=
  keeps.of_state? (by rw [outcome, Outcome.state?])

theorem bind {next : α → Evaluation β} (keeps : body.Keeps extent)
    (rest : ∀ result, body.Gives result → (next result).Keeps extent) :
    (body >>= next).Keeps extent := by
  intro start
  apply Triple.bind (keeps start).gives
  rintro result middle ⟨kept, given⟩
  apply (rest result given middle).weaken (fun _ same => same) _ _ middle rfl
  · intro result after left
    exact kept.trans left
  · intro after left
    exact kept.trans left

theorem widen (keeps : body.Keeps .expression) : body.Keeps extent := fun start =>
  (keeps start).weaken (fun _ same => same) (fun _ _ kept => kept.widen) fun _ kept => kept.widen

theorem loosen (keeps : body.Keeps .block) : body.Keeps .statement := fun start =>
  (keeps start).weaken (fun _ same => same) (fun _ _ kept => kept.loosen) fun _ kept => kept.loosen

theorem located (keeps : body.Keeps extent) (span : Span) :
    (Evaluation.located span body).Keeps extent :=
  fun start => (keeps start).located

theorem holding (keeps : body.Keeps extent) (addresses : List Address) :
    (Evaluation.holding addresses body).Keeps extent := by
  intro start
  apply Triple.ensuring
  apply (keeps start).weaken fun _ same => same
  · intro result after kept
    exact kept.aside _ _ _
  · intro after kept
    exact kept.aside _ _ _

theorem guarding (keeps : body.Keeps extent) (addresses : List Address) :
    (Evaluation.guarding addresses body).Keeps extent := by
  intro start
  apply Triple.guarding
  apply (keeps start).weaken fun _ same => same
  · intro result after kept
    exact kept
  · intro after kept
    exact kept.aside _ _ _

theorem pure (result : α) : (Pure.pure result : Evaluation α).Keeps .expression := by
  rintro start state rfl
  exact State.Keeps.refl .expression state

theorem fail (cause : Cause) : (Evaluation.fail cause : Evaluation α).Keeps .expression := by
  rintro start state rfl
  exact State.Keeps.refl .expression state

theorem stop {reason : Stop} (uninterrupted : reason ≠ .interrupted) :
    (Evaluation.stop reason : Evaluation α).Keeps .expression :=
  fun _ => Triple.stop uninterrupted

theorem read (view : State → α) : (Evaluation.read view).Keeps .expression := by
  rintro start state rfl
  exact State.Keeps.refl .expression state

theorem store (place : Place) (value : Address) :
    (Evaluation.store place value).Keeps .expression := by
  rintro start state rfl
  show state.Keeps .expression { state with
    scopes := (place.store state.scopes state.heap value).2.1
    heap := (place.store state.scopes state.heap value).2.2 }
  rcases place.scopes_store state.scopes state.heap value with same | ⟨depth, name, bound, same⟩
  · rw [same]
    exact (State.Keeps.refl .expression state).aside _ _ _
  · rw [same]
    obtain ⟨previous, found⟩ := Option.isSome_iff_exists.mp bound
    exact (State.Keeps.put (Scopes.lt_depth_of_get? found) (Or.inl bound)).aside _ _ _

theorem declare (name : Name) (value : Address) :
    (Evaluation.declare name value).Keeps .statement := by
  rintro start state rfl
  have inside : state.scopes.nested.size < state.scopes.depth := Nat.lt_succ_self _
  exact (State.Keeps.put inside (Or.inr ⟨rfl, rfl⟩)).aside _ _ _

theorem breakLoop : Evaluation.breakLoop.Keeps .expression := by
  rintro start state rfl
  have kept := State.Keeps.refl .expression state
  unfold Evaluation.breakLoop
  cases broken : state.loops.break? state.calls.loopBase with
  | none => exact kept
  | some loops =>
      exact ⟨kept.depth, Loops.depths_of_break? broken, kept.calls, kept.bound, kept.binds,
        kept.skips⟩

theorem continueLoop : Evaluation.continueLoop.Keeps .block := by
  rintro start state rfl
  unfold Evaluation.continueLoop
  cases found : state.loops.innermost? state.calls.loopBase with
  | none => exact State.Keeps.refl .block state
  | some frame =>
      constructor
      · exact Scopes.depth_skipFrom state.scopes frame.scopeDepth
      · rfl
      · rfl
      · intro position name bound
        rwa [Scopes.binds, Scopes.get?_skipFrom]
      · intro position name bound
        rw [Scopes.binds, Scopes.get?_skipFrom] at bound
        exact Or.inl bound
      · intro position marked
        by_cases reached : frame.scopeDepth ≤ position
        · exact Or.inr ⟨by decide, frame.scopeDepth, by simp [State.loopFloor?, found], reached⟩
        · left
          rw [Scopes.skips, List.getElem?_map, Scopes.getElem?_skipFrom] at marked
          rw [Scopes.skips, List.getElem?_map]
          simpa [reached] using marked

theorem setResult (value : Address) : (Evaluation.setResult value).Keeps .expression := by
  rintro start state rfl
  have kept := State.Keeps.refl .expression state
  unfold Evaluation.setResult
  cases current : state.calls.current? with
  | none => exact kept
  | some frame =>
      exact ⟨kept.depth, kept.loops, Calls.entered_modifyCurrent _ current rfl, kept.bound,
        kept.binds, kept.skips⟩

theorem inScope (keeps : body.Keeps .statement) : (Evaluation.inScope body).Keeps .block := by
  rintro start state rfl
  have popped := (keeps { state with scopes := state.scopes.push }).weaken (fun _ same => same)
    (fun _ _ kept => kept.popScope) fun _ kept => kept.popScope
  exact Triple.ensuring popped _ rfl

theorem inLoop (keeps : body.Keeps .block) : (Evaluation.inLoop body).Keeps .expression := by
  rintro start state rfl
  have popped := (keeps { state with
      loops := state.loops.push { scopeDepth := state.scopes.depth } }).weaken
    (fun _ same => same) (fun _ _ kept => kept.popLoop) fun _ kept => kept.popLoop
  exact Triple.ensuring popped _ rfl

theorem onHeap (action : Heap → α × Heap) : (Evaluation.onHeap action).Keeps .expression := by
  rintro start state rfl
  exact (State.Keeps.refl .expression state).aside _ _ _

theorem literal (names : Interner) (id : ExpressionId) (value : Literal) :
    (Evaluation.literal names id value).Keeps .expression := by
  rintro start state rfl
  have kept := State.Keeps.refl .expression state
  unfold Evaluation.literal
  cases state.literal? id with
  | some address => exact kept.aside _ _ _
  | none => exact kept.aside _ _ _

theorem invokeBuiltin (builtin : Builtin) (arguments : List Address) :
    (Evaluation.invokeBuiltin builtin arguments).Keeps .expression := by
  rintro start state rfl
  have kept := State.Keeps.refl .expression state
  unfold Evaluation.invokeBuiltin
  cases ended : (builtin.invoke arguments state.heap state.output).value with
  | ok address =>
      simp only [ended]
      exact kept.aside _ _ _
  | error failure =>
      simp only [ended]
      exact kept.aside _ _ _

variable {setup : Setup} {nested : Nested}

theorem runCall {function : Function} {arguments : List Address}
    (keeps : (runBody nested function arguments).Keeps .block) (start : State) (frame : CallFrame)
    (base : frame.loopBase = start.loops.depth) :
    Triple (· = { start with calls := start.calls.push frame })
      (Evaluation.runCall setup nested function arguments) (fun _ => start.Keeps .expression)
      (start.Keeps .expression) := by
  rintro state rfl
  have ended := keeps { start with calls := start.calls.push frame } _ rfl
  have pushed := Calls.current?_push start.calls frame
  unfold Evaluation.runCall
  cases outcome : runBody nested function arguments
      { start with calls := start.calls.push frame } with
  | value result inner =>
      rw [outcome] at ended
      obtain ⟨current, active⟩ := ended.current? pushed
      simp only [popCall, active]
      exact (ended.popCall base).aside _ _ _
  | failure failure inner =>
      rw [outcome] at ended
      obtain ⟨current, active⟩ := ended.current? pushed
      simp only [abandonCall, active]
      exact (ended.popCall base).aside _ _ _
  | stopped reason =>
      rw [outcome] at ended
      exact ended

theorem call {function : Function} {arguments : List Address} (callSite : Span)
    (keeps : (runBody nested function arguments).Keeps .block) :
    (Evaluation.guarding arguments (enterCall setup function callSite) >>= fun _ =>
      Evaluation.runCall setup nested function arguments).Keeps .expression := by
  rintro start state rfl
  rw [bind_run, Evaluation.guarding, enterCall]
  cases state.calls.exceeded? with
  | some limit => exact (State.Keeps.refl .expression state).aside _ _ _
  | none => exact runCall keeps state _ rfl _ rfl

end Evaluation.Keeps

/-- What each evaluator leaves behind, whatever the other one does. -/
def Coupling.keeping (setup : Setup) : Coupling setup where
  relates extent first _ := first.Keeps extent
  curtails := False
  widen := .widen
  loosen := .loosen
  pure := .pure
  fail cause _ := .fail cause
  stop := .stop
  exhausted _ never := never.elim
  read view _ := .read view
  onHeap {_ action} _ := .onHeap action
  literal := .literal setup.program.names
  store := .store
  builtin arguments _ := .invokeBuiltin _ arguments
  declare := .declare
  breakLoop := .breakLoop
  continueLoop := .continueLoop
  setResult := .setResult
  bind := .bind
  located span keeps := keeps.located span
  holding addresses keeps := keeps.holding addresses
  guarding addresses keeps := keeps.guarding addresses
  inScope := .inScope
  inLoop := .inLoop
  call _ _ callSite keeps := .call callSite keeps

end ScriptEngine
