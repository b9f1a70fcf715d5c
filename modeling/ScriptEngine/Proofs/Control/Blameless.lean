import ScriptEngine.Proofs.Control.Approximation

/-!
# Runs that agree apart from blame

Two nodes can stand for one computation and yet blame its failures on different spans,
and one of them may nest more deeply and so need more fuel.  They agree if, as soon as
each has enough fuel, they give the same result, or fail for the same cause with the same
calls active, and leave the same state.
-/

namespace ScriptEngine

open Evaluation

variable {α β : Type}

/-- Outcomes that differ in nothing but the spans that failures are blamed on. -/
inductive Outcome.Equivalent : Outcome α → Outcome α → Prop where
  | value (result : α) (state : State) : Equivalent (.value result state) (.value result state)
  | failure {failure failure' : Failure} (state : State) :
      failure.cause = failure'.cause → failure.backtrace = failure'.backtrace →
        Equivalent (.failure failure state) (.failure failure' state)
  | stopped (reason : Stop) : Equivalent (.stopped reason) (.stopped reason)

namespace Outcome.Equivalent

variable {first second third : Outcome α}

theorem refl (outcome : Outcome α) : outcome.Equivalent outcome := by
  cases outcome with
  | value result state => exact .value result state
  | failure failure state => exact .failure state rfl rfl
  | stopped reason => exact .stopped reason

theorem symm (same : first.Equivalent second) : second.Equivalent first := by
  cases same with
  | value result state => exact .value result state
  | failure state cause calls => exact .failure state cause.symm calls.symm
  | stopped reason => exact .stopped reason

theorem trans (same : first.Equivalent second) (same' : second.Equivalent third) :
    first.Equivalent third := by
  cases same with
  | value result state => exact same'
  | failure state cause calls =>
      cases same' with
      | failure _ cause' calls' => exact .failure state (cause.trans cause') (calls.trans calls')
  | stopped reason => exact same'

/-- Equivalent outcomes stop alike. -/
theorem stopped_iff (same : first.Equivalent second) (reason : Stop) :
    first = .stopped reason ↔ second = .stopped reason := by
  cases same with
  | value result state => exact Iff.rfl
  | failure state cause calls => simp
  | stopped reason => exact Iff.rfl

theorem bind {action action' : Evaluation α} {next next' : α → Evaluation β} {state : State}
    (same : (action state).Equivalent (action' state))
    (rest : ∀ {result middle}, action state = .value result middle →
      (next result middle).Equivalent (next' result middle)) :
    ((action >>= next) state).Equivalent ((action' >>= next') state) := by
  rw [bind_run, bind_run]
  generalize one : action state = outcome, action' state = outcome' at same
  cases same with
  | value result middle => exact rest one
  | failure middle cause calls => exact .failure middle cause calls
  | stopped reason => exact .stopped reason

end Outcome.Equivalent

theorem Evaluation.located_equivalent (span : Span) (body : Evaluation α) (state : State) :
    (located span body state).Equivalent (body state) := by
  unfold located
  cases body state with
  | value result last => exact .value result last
  | failure failure last => exact .failure last rfl rfl
  | stopped reason => exact .stopped reason

/-! ## Fuel -/

/-- The first evaluation does what the second does, apart from blame, or runs out of
fuel. -/
def Evaluation.FallsShort (first second : Evaluation α) : Prop :=
  ∀ state, (first state).Equivalent (second state) ∨ first state = .stopped .outOfFuel

namespace Evaluation.FallsShort

variable {first second third : Evaluation α}

theorem of_below (below : first.Below .outOfFuel second) : first.FallsShort second := by
  intro state
  rcases below state with same | stopped
  · exact Or.inl (same ▸ .refl _)
  · exact Or.inr stopped

theorem refl (body : Evaluation α) : body.FallsShort body :=
  fun _ => Or.inl (.refl _)

theorem of_stop : (stop .outOfFuel : Evaluation α).FallsShort second :=
  fun _ => Or.inr rfl

theorem trans (short : first.FallsShort second) (short' : second.FallsShort third) :
    first.FallsShort third := by
  intro state
  rcases short state with same | stopped
  · rcases short' state with same' | stopped
    · exact Or.inl (same.trans same')
    · exact Or.inr ((same.stopped_iff _).mpr stopped)
  · exact Or.inr stopped

theorem bind {next next' : α → Evaluation β} (short : first.FallsShort second)
    (rest : ∀ result, (next result).FallsShort (next' result)) :
    (first >>= next).FallsShort (second >>= next') := by
  intro state
  rcases short state with same | stopped
  · by_cases going : ∀ {result middle}, first state = .value result middle →
        (next result middle).Equivalent (next' result middle)
    · exact Or.inl (same.bind going)
    · simp only [not_forall] at going
      obtain ⟨result, middle, ended, differs⟩ := going
      have stopped := (rest result middle).resolve_left differs
      exact Or.inr (by rw [bind_run, ended]; exact stopped)
  · exact Or.inr (by rw [bind_run, stopped])

theorem located (short : first.FallsShort second) (span span' : Span) :
    (Evaluation.located span first).FallsShort (Evaluation.located span' second) := by
  intro state
  rcases short state with same | stopped
  · left
    exact ((located_equivalent span first state).trans same).trans
      (located_equivalent span' second state).symm
  · exact Or.inr (((located_equivalent span first state).stopped_iff _).mpr stopped)

/-- Blame of the first evaluation makes no difference. -/
theorem locatedLeft (short : first.FallsShort second) (span : Span) :
    (Evaluation.located span first).FallsShort second := by
  intro state
  have blamed := located_equivalent span first state
  rcases short state with same | stopped
  · exact Or.inl (blamed.trans same)
  · exact Or.inr ((blamed.stopped_iff _).mpr stopped)

/-- Blame of the second evaluation makes no difference. -/
theorem locatedRight (short : first.FallsShort second) (span : Span) :
    first.FallsShort (Evaluation.located span second) := by
  intro state
  exact (short state).imp_left fun same => same.trans (located_equivalent span second state).symm

theorem ensuring (short : first.FallsShort second) (change : State → State) :
    (Evaluation.ensuring first change).FallsShort (Evaluation.ensuring second change) := by
  intro state
  unfold Evaluation.ensuring
  rcases short state with same | stopped
  · generalize first state = outcome, second state = outcome' at same
    cases same with
    | value result last => exact Or.inl (.value result _)
    | failure last cause calls => exact Or.inl (.failure _ cause calls)
    | stopped reason => exact Or.inl (.stopped reason)
  · exact Or.inr (by rw [stopped])

end Evaluation.FallsShort

/-- Two computations, each given as what it does with any amount of fuel, end on the same
states, and equivalently. -/
structure Evaluation.Concur (first second : Nat → Evaluation α) : Prop where
  ends : ∀ state, (∃ fuel, first fuel state ≠ .stopped .outOfFuel) ↔
    ∃ fuel, second fuel state ≠ .stopped .outOfFuel
  same : ∀ {state fuel less}, first fuel state ≠ .stopped .outOfFuel →
    second less state ≠ .stopped .outOfFuel →
      (first fuel state).Equivalent (second less state)

/-- Each computation does, with some fuel, all that the other does with any. -/
theorem Evaluation.Concur.of_fallsShort {first second : Nat → Evaluation α}
    (grows : ∀ {fuel more}, fuel ≤ more → (second fuel).Below .outOfFuel (second more))
    (forth : ∀ fuel, ∃ more, (first fuel).FallsShort (second more))
    (back : ∀ fuel, ∃ more, (second fuel).FallsShort (first more)) : Concur first second where
  ends state := by
    constructor
    · rintro ⟨fuel, ended⟩
      obtain ⟨more, short⟩ := forth fuel
      have same := (short state).resolve_right ended
      exact ⟨more, fun stopped => ended ((same.stopped_iff _).mpr stopped)⟩
    · rintro ⟨fuel, ended⟩
      obtain ⟨more, short⟩ := back fuel
      have same := (short state).resolve_right ended
      exact ⟨more, fun stopped => ended ((same.stopped_iff _).mpr stopped)⟩
  same := by
    intro state fuel less ended ended'
    obtain ⟨more, short⟩ := forth fuel
    have same := (short state).resolve_right ended
    have going : second more state ≠ .stopped .outOfFuel :=
      fun stopped => ended ((same.stopped_iff _).mpr stopped)
    rw [(grows (le_max_left more less) state).resolve_right going] at same
    rwa [(grows (le_max_right more less) state).resolve_right ended']

/-- A node that nests one level deeper than another needs one level of fuel more. -/
theorem Evaluation.Concur.of_deeper {first second : Nat → Evaluation α}
    (grows : ∀ {fuel more}, fuel ≤ more → (second fuel).Below .outOfFuel (second more))
    (empty : first 0 = stop .outOfFuel) (empty' : second 0 = stop .outOfFuel)
    (forth : ∀ fuel, (first (fuel + 1)).FallsShort (second (fuel + 1 + 1)))
    (back : ∀ fuel, (second (fuel + 1)).FallsShort (first (fuel + 1))) : Concur first second := by
  apply Concur.of_fallsShort grows
  · intro fuel
    cases fuel with
    | zero => exact ⟨0, empty ▸ .of_stop⟩
    | succ fuel => exact ⟨fuel + 1 + 1, forth fuel⟩
  · intro fuel
    cases fuel with
    | zero => exact ⟨0, empty' ▸ .of_stop⟩
    | succ fuel => exact ⟨fuel + 1, back fuel⟩

end ScriptEngine
