import ScriptEngine.Interpreter.Basic
import ScriptEngine.Proofs.Control.Refinement

/-!
# Idle states

Between two steps of a host no call and no loop is active, and only the root
frame is there.  Outside of loops and calls nothing can complete with a signal,
so a step leaves an idle state as idle as it was, whether it gives a value or
fails.
-/

namespace ScriptEngine

open Evaluation

namespace State

structure Idle (state : State) : Prop where
  call : state.calls.frames = #[]
  loop : state.loops.frames = #[]
  scope : state.scopes.skips = [false]

namespace Idle

variable {state after : State}

theorem of_sameControl (idle : state.Idle) (same : state.SameControl after) : after.Idle :=
  ⟨by rw [same.calls, idle.call], by rw [same.loops, idle.loop], by rw [same.skips, idle.scope]⟩

theorem depth (idle : state.Idle) : state.scopes.depth = 1 := by
  rw [← Scopes.length_skips, idle.scope]
  rfl

theorem current? (idle : state.Idle) : state.calls.current? = none := by
  simp [Calls.current?, idle.call]

theorem innermost? (idle : state.Idle) (base : Nat) : state.loops.innermost? base = none := by
  simp [Loops.innermost?, Loops.depth, idle.loop]

theorem results (idle : state.Idle) : state.calls.results = 0 := by
  simp [Calls.results, idle.call]

theorem nested (idle : state.Idle) : state.scopes.nested = #[] := by
  have single := idle.depth
  rw [Scopes.depth] at single
  exact Array.size_eq_zero_iff.mp (by omega)

theorem ready (idle : state.Idle) : state.Ready := by
  refine ⟨⟨?_, ?_⟩, ?_, ?_⟩
  · intro frame found
    rw [idle.innermost?] at found
    simp at found
  · intro frame found
    rw [idle.current?] at found
    simp at found
  · have last := state.scopes.skips_getLast?
    rw [idle.scope] at last
    exact (Option.some.inj last).symm
  · intro frame found
    rw [idle.innermost?] at found
    simp at found

theorem normal_of_possible (idle : state.Idle) {completion : Completion}
    (possible : completion.Possible state) : completion = .normal := by
  cases completion with
  | normal => rfl
  | broken => simp [Completion.Possible, idle.innermost?] at possible
  | continued => simp [Completion.Possible, idle.innermost?] at possible
  | returned value => simp [Completion.Possible, idle.current?] at possible

end Idle

theorem idle_initial (calls : Calls) (output : Output) (fresh : calls.frames = #[]) :
    ({ calls := calls, output := output } : State).Idle :=
  ⟨fresh, rfl, rfl⟩

end State

namespace Evaluation

variable {α : Type}

/-- Whatever is steady keeps states idle. -/
theorem idle_of_steady {body : Evaluation α}
    (steady : ∀ start : State, Triple start.SameControl body (fun _ => start.SameControl)
      start.SameControl) :
    Triple State.Idle body (fun _ => State.Idle) State.Idle := by
  intro state idle
  have ended := steady state state (State.SameControl.refl state)
  cases outcome : body state with
  | value result after =>
      rw [outcome] at ended
      exact idle.of_sameControl ended
  | failure failure after =>
      rw [outcome] at ended
      exact idle.of_sameControl ended
  | stopped reason =>
      rw [outcome] at ended
      exact ended

/-- From an idle state, statements complete normally. -/
theorem sameControl_of_refines {body : Evaluation Unit} {structured : Evaluation Completion}
    (refines : body.Refines State.Ready structured) (completes : structured.Completes)
    {start : State} (idle : start.Idle) :
    Triple (· = start) body (fun _ => start.SameControl) start.SameControl := by
  rintro state rfl
  have ended := completes state state (State.SameControl.refl state)
  rw [refines state idle.ready]
  cases outcome : structured state with
  | value completion after =>
      rw [outcome] at ended
      have normal := idle.normal_of_possible ended.2
      subst normal
      exact ended.1
  | failure failure after =>
      rw [outcome] at ended
      exact ended
  | stopped reason =>
      rw [outcome] at ended
      exact ended

theorem idle_of_refines {body : Evaluation Unit} {structured : Evaluation Completion}
    (refines : body.Refines State.Ready structured) (completes : structured.Completes) :
    Triple State.Idle body (fun _ => State.Idle) State.Idle := by
  intro start idle
  have same := (sameControl_of_refines refines completes idle).weaken
    (fun _ same => same) (fun _ _ control => idle.of_sameControl control)
    fun _ control => idle.of_sameControl control
  exact same start rfl

end Evaluation

namespace Nested

variable (setup : Setup) (fuel : Nat)

theorem evaluate_idle (id : ExpressionId) :
    Triple State.Idle ((withFuel setup fuel).evaluate id) (fun _ => State.Idle)
      State.Idle := by
  rw [(Refines.withFuel setup fuel).operands]
  apply idle_of_steady
  intro start
  exact ((Structured.withFuel_steady setup fuel).operands start).evaluate id .empty

theorem execute_idle (id : StatementId) :
    Triple State.Idle ((withFuel setup fuel).execute id) (fun _ => State.Idle) State.Idle :=
  idle_of_refines ((Refines.withFuel setup fuel).execute id)
    ((Structured.withFuel_steady setup fuel).execute id)

theorem sequence_idle (statements : List StatementId) :
    Triple State.Idle (Evaluation.sequence (withFuel setup fuel) statements)
      (fun _ => State.Idle) State.Idle := by
  have steady := Structured.withFuel_steady setup fuel
  exact idle_of_refines ((Refines.withFuel setup fuel).sequence steady statements)
    (Structured.sequence_completes steady statements)

theorem callUser_idle (function : FunctionId) (arguments : List Address) :
    Triple State.Idle
      (callUser setup (runCall setup (withFuel setup fuel)) function arguments .empty)
      (fun _ => State.Idle) State.Idle := by
  have steady := Structured.withFuel_steady setup fuel
  rw [(Refines.withFuel setup fuel).callUser steady]
  exact idle_of_steady fun start =>
    Structured.callUser_steady (Structured.runCall_leaves steady start) function arguments .empty

end Nested

end ScriptEngine
