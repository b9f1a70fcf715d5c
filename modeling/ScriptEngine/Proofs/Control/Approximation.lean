import ScriptEngine.Proofs.Control.Lockstep
import ScriptEngine.Proofs.Custody.Runs

/-!
# Evaluations that are cut short

One evaluation is below another if it does the same wherever it is not cut
short.  Less fuel only cuts a run short, and so does an observer.  What a run
gives with some fuel is therefore what it gives with any that suffices.
-/

namespace ScriptEngine

open Evaluation

variable {α β : Type} {reason : Stop} {setup : Setup}

/-- The first evaluation does what the second does, or stops for the reason. -/
def Evaluation.Below (reason : Stop) (first second : Evaluation α) : Prop :=
  ∀ state, first state = second state ∨ first state = .stopped reason

namespace Evaluation.Below

theorem refl (body : Evaluation α) : body.Below reason body :=
  fun _ => Or.inl rfl

theorem bind {first second : Evaluation α} {next next' : α → Evaluation β}
    (below : first.Below reason second)
    (rest : ∀ result, first.Gives result → (next result).Below reason (next' result)) :
    (first >>= next).Below reason (second >>= next') := by
  intro state
  rw [bind_run, bind_run]
  rcases below state with same | stopped
  · rw [← same]
    cases outcome : first state with
    | value result middle => exact rest result ⟨state, middle, outcome⟩ middle
    | failure failure middle => exact Or.inl rfl
    | stopped reason => exact Or.inl rfl
  · rw [stopped]
    exact Or.inr rfl

variable {first second : Evaluation α} (below : first.Below reason second)
include below

theorem located (span : Span) :
    (Evaluation.located span first).Below reason (Evaluation.located span second) := by
  intro state
  unfold Evaluation.located
  rcases below state with same | stopped
  · exact Or.inl (by rw [same])
  · exact Or.inr (by rw [stopped])

theorem ensuring (change : State → State) :
    (Evaluation.ensuring first change).Below reason (Evaluation.ensuring second change) := by
  intro state
  unfold Evaluation.ensuring
  rcases below state with same | stopped
  · exact Or.inl (by rw [same])
  · exact Or.inr (by rw [stopped])

theorem guarding (addresses : List Address) :
    (Evaluation.guarding addresses first).Below reason
      (Evaluation.guarding addresses second) := by
  intro state
  unfold Evaluation.guarding
  rcases below state with same | stopped
  · exact Or.inl (by rw [same])
  · exact Or.inr (by rw [stopped])

end Evaluation.Below

/-- Loops may be given fewer rounds where it is a lack of fuel that cuts them
short. -/
def Coupling.cutShort (setup : Setup) (reason : Stop) : Coupling setup where
  relates _ := Evaluation.Below reason
  curtails := reason = .outOfFuel
  widen below := below
  loosen below := below
  pure _ := .refl _
  fail _ _ := .refl _
  stop _ := .refl _
  exhausted := by
    rintro α body rfl state
    exact Or.inr rfl
  read _ _ := .refl _
  onHeap _ := .refl _
  literal _ _ := .refl _
  store _ _ := .refl _
  builtin _ _ := .refl _
  declare _ _ := .refl _
  breakLoop := .refl _
  continueLoop := .refl _
  setResult _ := .refl _
  bind := .bind
  located span below := below.located span
  holding addresses below := below.ensuring _
  guarding addresses below := below.guarding addresses
  inScope below := fun state => below.ensuring _ { state with scopes := state.scopes.push }
  inLoop below := fun state =>
    below.ensuring _
      { state with loops := state.loops.push { scopeDepth := state.scopes.depth } }
  call function arguments callSite below := by
    apply Evaluation.Below.bind (.refl _)
    intro _ _ state
    unfold Evaluation.runCall
    rcases below state with same | stopped
    · exact Or.inl (by rw [same])
    · exact Or.inr (by rw [stopped])

namespace Nested

/-- One evaluator does what another does wherever it is not cut short. -/
abbrev Below (setup : Setup) (reason : Stop) (first second : Nested) : Prop :=
  first.Related (.cutShort setup reason) second

theorem exhausted_below (nested : Nested) : exhausted.Below setup .outOfFuel nested where
  operands :=
    { evaluate := fun _ _ => Or.inr rfl
      share := fun _ _ => Or.inr rfl
      target := fun _ _ => Or.inr rfl }
  execute _ _ := Or.inr rfl
  iterations := Or.inr ⟨rfl, Nat.zero_le _⟩

/-- With less fuel a run does the same or runs out of it. -/
theorem withFuel_below {fuel more : Nat} (fewer : fuel ≤ more) :
    (withFuel setup fuel).Below setup .outOfFuel (withFuel setup more) := by
  induction fuel generalizing more with
  | zero => exact exhausted_below _
  | succ fuel induction =>
      cases more with
      | zero => simp at fewer
      | succ more =>
          have less : fuel ≤ more := Nat.le_of_succ_le_succ fewer
          exact (induction less).layer (Or.inr ⟨rfl, less⟩)

theorem observed_below (allowed : State → Prop) {first second : Nested}
    (below : first.Below setup .interrupted second) :
    (observed allowed first).Below setup .interrupted second := by
  have watched : ∀ {α : Type} {body body' : Evaluation α}, body.Below .interrupted body' →
      (Evaluation.observed allowed body).Below .interrupted body' := by
    intro α body body' below state
    rw [observed_run]
    split
    · rcases below state with same | stopped
      · rw [← same]
        cases body state with
        | value result after =>
            simp only
            split
            · exact Or.inl rfl
            · exact Or.inr rfl
        | failure failure after =>
            simp only
            split
            · exact Or.inl rfl
            · exact Or.inr rfl
        | stopped reason => exact Or.inl rfl
      · rw [stopped]
        exact Or.inr rfl
    · exact Or.inr rfl
  exact ⟨⟨fun id => watched (below.operands.evaluate id),
    fun id => watched (below.operands.share id), fun id => watched (below.operands.target id)⟩,
    fun id => watched (below.execute id), below.iterations⟩

/-- A run that is watched does the same as one that is not, or is
interrupted. -/
theorem watched_below (setup : Setup) (allowed : State → Prop) (fuel : Nat) :
    (watched setup allowed fuel).Below setup .interrupted (withFuel setup fuel) := by
  induction fuel with
  | zero => exact ⟨⟨fun _ => .refl _, fun _ => .refl _, fun _ => .refl _⟩, fun _ => .refl _,
      Or.inl rfl⟩
  | succ fuel induction => exact observed_below allowed (induction.layer (Or.inl rfl))

end Nested

end ScriptEngine
