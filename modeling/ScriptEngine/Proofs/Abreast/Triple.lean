import ScriptEngine.Proofs.Abreast.States

/-!
# Evaluations side by side

Two evaluations run abreast if, from states that are related, both give values,
both fail with one failure or both stop for one reason, and the states they leave are
related again.  The rules follow the ways in which evaluations are put together; an
assertion about two states is one about the handles at hand in both.
-/

namespace ScriptEngine

variable {α β : Type}

/-- Two ends of which neither is an interruption. -/
inductive Outcome.Abreast (after : α → α → State → State → Prop) (failed : State → State → Prop) :
    Outcome α → Outcome α → Prop where
  | value {result other : α} {state state' : State} :
      after result other state state' → Abreast after failed (.value result state)
        (.value other state')
  | failure {state state' : State} (failure : Failure) :
      failed state state' → Abreast after failed (.failure failure state) (.failure failure state')
  | stopped {reason : Stop} :
      reason ≠ .interrupted → Abreast after failed (.stopped reason) (.stopped reason)

theorem Outcome.Abreast.uninterrupted {after : α → α → State → State → Prop}
    {failed : State → State → Prop} {one another : Outcome α}
    (abreast : Abreast after failed one another) : one ≠ .stopped .interrupted := by
  rintro rfl
  cases abreast with
  | stopped uninterrupted => exact uninterrupted rfl

namespace Evaluation

def Abreast (before : State → State → Prop) (first second : Evaluation α)
    (after : α → α → State → State → Prop) (failed : State → State → Prop) : Prop :=
  ∀ state state', before state state' → Outcome.Abreast after failed (first state) (second state')

namespace Abreast

variable {before failed : State → State → Prop} {after : α → α → State → State → Prop}
variable {first second : Evaluation α}

theorem pure {result other : α}
    (holds : ∀ state state', before state state' → after result other state state') :
    Abreast before (Pure.pure result) (Pure.pure other) after failed :=
  fun state state' started => .value (holds state state' started)

theorem fail (cause : Cause) (holds : ∀ state state', before state state' → failed state state') :
    Abreast before (Evaluation.fail cause) (Evaluation.fail cause) after failed :=
  fun state state' started => .failure (.of cause) (holds state state' started)

theorem stop {reason : Stop} (uninterrupted : reason ≠ .interrupted) :
    Abreast before (Evaluation.stop reason) (Evaluation.stop reason) after failed :=
  fun _ _ _ => .stopped uninterrupted

theorem bind {middle : α → α → State → State → Prop} {last : β → β → State → State → Prop}
    {next next' : α → Evaluation β} (abreast : Abreast before first second middle failed)
    (rest : ∀ result other, Abreast (middle result other) (next result) (next' other) last failed) :
    Abreast before (first >>= next) (second >>= next') last failed := by
  intro state state' started
  rw [bind_run, bind_run]
  have ended := abreast state state' started
  generalize first state = one, second state' = another at ended ⊢
  cases ended with
  | value held => exact rest _ _ _ _ held
  | failure failure held => exact .failure failure held
  | stopped uninterrupted => exact .stopped uninterrupted

/-- What both give is of no interest. -/
theorem void (abreast : Abreast before first second after failed) :
    Abreast before (first >>= fun _ => Pure.pure ()) (second >>= fun _ => Pure.pure ())
      (fun _ _ _ _ => True) failed :=
  abreast.bind fun _ _ => .pure fun _ _ _ => trivial

/-- What both give alike is given to both. -/
theorem bind_same {middle : α → State → State → Prop} {last : β → β → State → State → Prop}
    {next next' : α → Evaluation β}
    (abreast : Abreast before first second
      (fun result other state state' => result = other ∧ middle result state state') failed)
    (rest : ∀ result, Abreast (middle result) (next result) (next' result) last failed) :
    Abreast before (first >>= next) (second >>= next') last failed := by
  apply abreast.bind
  rintro result other state state' ⟨rfl, held⟩
  exact rest result state state' held

/-- What both give comes from one thing. -/
theorem bind_joint {ι : Type} {one another : ι → α} {middle : ι → State → State → Prop}
    {last : β → β → State → State → Prop} {next next' : α → Evaluation β}
    (abreast : Abreast before first second
      (fun result other state state' => ∃ index, result = one index ∧ other = another index ∧
        middle index state state') failed)
    (rest : ∀ index,
      Abreast (middle index) (next (one index)) (next' (another index)) last failed) :
    Abreast before (first >>= next) (second >>= next') last failed := by
  apply abreast.bind
  rintro result other state state' ⟨index, rfl, rfl, held⟩
  exact rest index state state' held

theorem weaken {stronger rarer : State → State → Prop} {narrower : α → α → State → State → Prop}
    (abreast : Abreast before first second narrower rarer)
    (starts : ∀ state state', stronger state state' → before state state')
    (ends : ∀ result other state state', narrower result other state state' →
      after result other state state')
    (fails : ∀ state state', rarer state state' → failed state state') :
    Abreast stronger first second after failed := by
  intro state state' started
  have ended := abreast state state' (starts state state' started)
  generalize first state = one, second state' = another at ended ⊢
  cases ended with
  | value held => exact .value (ends _ _ _ _ held)
  | failure failure held => exact .failure failure (fails _ _ held)
  | stopped uninterrupted => exact .stopped uninterrupted

theorem located (span : Span) (abreast : Abreast before first second after failed) :
    Abreast before (Evaluation.located span first) (Evaluation.located span second) after
      failed := by
  intro state state' started
  unfold Evaluation.located
  have ended := abreast state state' started
  generalize first state = one, second state' = another at ended ⊢
  cases ended with
  | value held => exact .value held
  | failure failure held => exact .failure _ held
  | stopped uninterrupted => exact .stopped uninterrupted

theorem ensuring {change change' : State → State}
    (abreast : Abreast before first second
      (fun result other state state' => after result other (change state) (change' state'))
      (fun state state' => failed (change state) (change' state'))) :
    Abreast before (Evaluation.ensuring first change) (Evaluation.ensuring second change') after
      failed := by
  intro state state' started
  unfold Evaluation.ensuring
  have ended := abreast state state' started
  generalize first state = one, second state' = another at ended ⊢
  cases ended with
  | value held => exact .value held
  | failure failure held => exact .failure failure held
  | stopped uninterrupted => exact .stopped uninterrupted

theorem guarding {addresses addresses' : List Address}
    (abreast : Abreast before first second after
      (fun state state' => failed (state.releaseAll addresses) (state'.releaseAll addresses'))) :
    Abreast before (Evaluation.guarding addresses first) (Evaluation.guarding addresses' second)
      after failed := by
  intro state state' started
  unfold Evaluation.guarding
  have ended := abreast state state' started
  generalize first state = one, second state' = another at ended ⊢
  cases ended with
  | value held => exact .value held
  | failure failure held => exact .failure failure held
  | stopped uninterrupted => exact .stopped uninterrupted

/-- Something that looks alike in both states. -/
theorem read {view view' : State → α}
    (same : ∀ state state', before state state' → view state = view' state') :
    Abreast before (Evaluation.read view) (Evaluation.read view')
      (fun result other state state' =>
        result = other ∧ before state state' ∧ result = view state) failed :=
  fun state state' started => .value ⟨same state state' started, started, rfl⟩

theorem glance {view view' : State → α}
    (same : ∀ state state', before state state' → view state = view' state') :
    Abreast before (Evaluation.read view) (Evaluation.read view')
      (fun result other state state' => result = other ∧ before state state') failed :=
  fun state state' started => .value ⟨same state state' started, started⟩

theorem ofExcept {result : Except Cause α}
    (fails : ∀ state state', before state state' → failed state state') :
    Abreast before (Evaluation.ofExcept result) (Evaluation.ofExcept result)
      (fun value other state state' => value = other ∧ before state state' ∧ result = .ok value)
      failed := by
  intro state state' started
  cases result with
  | ok value => exact .value ⟨rfl, started, rfl⟩
  | error cause => exact .failure _ (fails state state' started)

theorem ofExcept_glance {result : Except Cause α}
    (fails : ∀ state state', before state state' → failed state state') :
    Abreast before (Evaluation.ofExcept result) (Evaluation.ofExcept result)
      (fun value other state state' => value = other ∧ before state state') failed :=
  (ofExcept fails).weaken (fun _ _ started => started)
    (fun _ _ _ _ ended => ⟨ended.1, ended.2.1⟩) fun _ _ failing => failing

end Abreast

end Evaluation

end ScriptEngine
