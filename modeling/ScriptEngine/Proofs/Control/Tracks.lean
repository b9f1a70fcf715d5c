import ScriptEngine.Proofs.Control.Quiet
import ScriptEngine.Proofs.Hosting.Assignments

/-!
# Tracks of walks

The target of an assignment is a variable and indices that lead away from it.  A
track says what a walk to a target does for each index: which container is in the
place that has been reached, and what the index is evaluated to.
-/

namespace ScriptEngine

open Evaluation

/-- The variable at the root of a target, and the indices from there on. -/
inductive Program.Addresses (program : Program) : ExpressionId → Name → List ExpressionId → Prop where
  | reference {id : ExpressionId} {name : Name} {span : Span} :
      program.expression? id = some ⟨.reference name, span⟩ → Addresses program id name []
  | index {id base : ExpressionId} {name : Name} {earlier indices : List ExpressionId} {span : Span} :
      program.expression? id = some ⟨.index base indices, span⟩ →
      Addresses program base name earlier → Addresses program id name (earlier ++ indices)

namespace Evaluation

/-- One index of a walk: the place where it stands, the container there, and the
key that the index is evaluated to, with the state in which it is looked up and the
heap in which it has been found. -/
structure Stride where
  place : Place
  container : Address
  key : Address
  keyed : State
  found : Heap

/-- The key apart from its identity. -/
def Stride.tree (stride : Stride) : Tree :=
  stride.keyed.heap.tree stride.key

/-- How a walk follows indices from one place to another. -/
inductive Tracks (setup : Setup) :
    Place → List ExpressionId → State → List Stride → Place → State → Prop where
  | nil (place : Place) (state : State) : Tracks setup place [] state [] place state
  | cons {place next last : Place} {container key : Address} {index : ExpressionId}
      {others : List ExpressionId} {start keyed reached : State} {heap : Heap}
      {strides : List Stride} (fuel : Nat) :
      place.load start.scopes start.heap = .ok container →
      (Nested.withFuel setup fuel).evaluate index
        { start with heap := start.heap.retain container } = .value key keyed →
      keyed.heap.locate container key .write = (.ok next, heap) →
      Tracks setup next others
        ((State.releaseAll { keyed with heap := heap } [container]).releaseAll place.handles)
        strides last reached →
      Tracks setup place (index :: others) start (⟨place, container, key, keyed, heap⟩ :: strides)
        last reached

variable {setup : Setup}

theorem Tracks.length {place last : Place} {indices : List ExpressionId} {start reached : State}
    {strides : List Stride} (tracks : Tracks setup place indices start strides last reached) :
    strides.length = indices.length := by
  induction tracks with
  | nil => rfl
  | cons _ _ _ _ _ induction => rw [List.length_cons, List.length_cons, induction]

theorem Tracks.append {place next last : Place} {earlier later : List ExpressionId}
    {start middle reached : State} {strides strides' : List Stride}
    (first : Tracks setup place earlier start strides next middle)
    (second : Tracks setup next later middle strides' last reached) :
    Tracks setup place (earlier ++ later) start (strides ++ strides') last reached := by
  induction first with
  | nil => exact second
  | cons fuel loaded valued located _ induction =>
      exact .cons fuel loaded valued located (induction second)

/-! ## What evaluations that ended consist of -/

section

variable {α β : Type} {start last : State} {failure : Failure}

theorem value_of_located {span : Span} {body : Evaluation α} {result : α}
    (ended : located span body start = .value result last) : body start = .value result last := by
  unfold located at ended
  cases outcome : body start with
  | value first middle =>
      rw [outcome] at ended
      exact ended
  | failure failure middle => simp [outcome] at ended
  | stopped reason => simp [outcome] at ended

theorem failure_of_located {span : Span} {body : Evaluation α}
    (ended : located span body start = .failure failure last) :
    ∃ inner, body start = .failure inner last := by
  unfold located at ended
  cases outcome : body start with
  | value first middle => simp [outcome] at ended
  | failure inner middle =>
      simp only [outcome, Outcome.failure.injEq] at ended
      exact ⟨inner, by rw [ended.2]⟩
  | stopped reason => simp [outcome] at ended

theorem failure_of_holding {addresses : List Address} {body : Evaluation α}
    (ended : holding addresses body start = .failure failure last) :
    ∃ middle, body start = .failure failure middle ∧ last = middle.releaseAll addresses := by
  unfold holding ensuring at ended
  cases outcome : body start with
  | value first middle => simp [outcome] at ended
  | failure inner middle =>
      simp only [outcome, Outcome.failure.injEq] at ended
      exact ⟨middle, by rw [ended.1], ended.2.symm⟩
  | stopped reason => simp [outcome] at ended

end

/-- A place that could be loaded, and the state with another handle on what is there. -/
theorem loaded_of_loadPlace {place : Place} {address : Address} {start last : State}
    (ended : loadPlace place start = .value address last) :
    place.load start.scopes start.heap = .ok address ∧
      last = { start with heap := start.heap.retain address } := by
  unfold loadPlace at ended
  rw [bind_run] at ended
  simp only [read] at ended
  cases loaded : place.load start.scopes start.heap with
  | error cause => simp [loaded, ofExcept, bind_run, fail] at ended
  | ok value =>
      rw [loaded] at ended
      cases ended
      exact ⟨rfl, rfl⟩

theorem state_of_failing_loadPlace {place : Place} {start last : State} {failure : Failure}
    (ended : loadPlace place start = .failure failure last) : last = start := by
  unfold loadPlace at ended
  rw [bind_run] at ended
  simp only [read] at ended
  cases loaded : place.load start.scopes start.heap with
  | error cause =>
      rw [loaded] at ended
      cases ended
      rfl
  | ok value =>
      rw [loaded] at ended
      cases ended

theorem located_of_locateForWriting {container key : Address} {next : Place} {start last : State}
    (ended : locateForWriting container key start = .value next last) :
    ∃ heap, start.heap.locate container key .write = (.ok next, heap) ∧
      last = { start with heap := heap } := by
  unfold locateForWriting at ended
  rw [bind_run] at ended
  simp only [onHeap, State.onHeap] at ended
  cases located : start.heap.locate container key .write with
  | mk result heap =>
      rw [located] at ended
      cases result with
      | error cause => simp [ofExcept, fail] at ended
      | ok place =>
          cases ended
          exact ⟨heap, rfl, rfl⟩

theorem state_of_failing_locateForWriting {container key : Address} {start last : State}
    {failure : Failure} (ended : locateForWriting container key start = .failure failure last) :
    last = start.releaseAll [key] := by
  unfold locateForWriting at ended
  rw [bind_run] at ended
  simp only [onHeap, State.onHeap] at ended
  have failing : ∀ {cause heap}, start.heap.locate container key .write = (.error cause, heap) →
      heap = start.heap.release key := by
    intro cause heap located
    unfold Heap.locate at located
    split at located
    · cases located
      rfl
    · simp at located
    · simp at located
    · simp at located
  cases located : start.heap.locate container key .write with
  | mk result heap =>
      rw [located] at ended
      cases result with
      | error cause =>
          cases ended
          rw [failing located]
          rfl
      | ok place => cases ended

/-! ## Walks that lead to a place -/

theorem stride_of_placeStep {operands : Operands} {index : ExpressionId} {place next : Place}
    {start last : State}
    (ended : (holding place.handles do
      let container ← loadPlace place
      holding [container] do
        let key ← operands.evaluate index
        located (setup.program.spanOf index) (locateForWriting container key)) start =
      .value next last) :
    ∃ container key keyed heap, place.load start.scopes start.heap = .ok container ∧
      operands.evaluate index { start with heap := start.heap.retain container } =
        .value key keyed ∧
      keyed.heap.locate container key .write = (.ok next, heap) ∧
      last = (State.releaseAll { keyed with heap := heap } [container]).releaseAll
        place.handles := by
  obtain ⟨outer, stepped, released⟩ := exists_of_holding ended
  obtain ⟨container, shared, loads, walked⟩ := exists_of_bind stepped
  obtain ⟨loaded, rfl⟩ := loaded_of_loadPlace loads
  obtain ⟨inner, looked, dropped⟩ := exists_of_holding walked
  obtain ⟨key, keyed, valued, placed⟩ := exists_of_bind looked
  obtain ⟨heap, located, rfl⟩ := located_of_locateForWriting (value_of_located placed)
  exact ⟨container, key, keyed, heap, loaded, valued, located, by rw [released, dropped]⟩

theorem tracks_of_placeChain {fuel : Nat} {indices : List ExpressionId} {place last : Place}
    {start reached : State}
    (ended : placeChain setup (Nested.withFuel setup fuel).toOperands place indices start =
      .value last reached) :
    ∃ strides, Tracks setup place indices start strides last reached := by
  induction indices generalizing place start with
  | nil =>
      cases ended
      exact ⟨[], .nil _ _⟩
  | cons index others induction =>
      obtain ⟨next, middle, stepped, rest⟩ := exists_of_bind ended
      obtain ⟨container, key, keyed, heap, loaded, valued, located, rfl⟩ :=
        stride_of_placeStep stepped
      obtain ⟨strides, tracks⟩ := induction rest
      exact ⟨_, .cons fuel loaded valued located tracks⟩

theorem resolved_of_bindingPlace {name : Name} {place : Place} {start last : State}
    (ended : bindingPlace setup name start = .value place last) :
    last = start ∧ ∃ position, place = .binding position name ∧
      start.scopes.resolve? name start.calls.scopeFloor = some position := by
  unfold bindingPlace at ended
  rw [bind_run] at ended
  simp only [read] at ended
  cases resolved : start.scopes.resolve? name start.calls.scopeFloor with
  | none => simp [resolved, fail] at ended
  | some position =>
      rw [resolved] at ended
      cases ended
      exact ⟨rfl, position, rfl, rfl⟩

theorem state_of_failing_bindingPlace {name : Name} {start last : State} {failure : Failure}
    (ended : bindingPlace setup name start = .failure failure last) : last = start := by
  unfold bindingPlace at ended
  rw [bind_run] at ended
  simp only [read] at ended
  cases resolved : start.scopes.resolve? name start.calls.scopeFloor with
  | none =>
      rw [resolved] at ended
      cases ended
      rfl
  | some position =>
      rw [resolved] at ended
      cases ended

/-- The place of a target lies at the end of a track from its variable. -/
theorem tracks_of_target {fuel : Nat} {target : ExpressionId} {place : Place}
    {start reached : State}
    (ended : (Nested.withFuel setup fuel).target target start = .value place reached) :
    ∃ name indices position strides, setup.program.Addresses target name indices ∧
      start.scopes.resolve? name start.calls.scopeFloor = some position ∧
      Tracks setup (.binding position name) indices start strides place reached := by
  induction fuel generalizing target place reached with
  | zero => simp [Nested.withFuel, Nested.exhausted, stop] at ended
  | succ fuel induction =>
      change withExpression setup target _ start = _ at ended
      unfold withExpression at ended
      cases found : setup.program.expression? target with
      | none => simp [found, stop] at ended
      | some entry =>
          obtain ⟨node, span⟩ := entry
          rw [found] at ended
          cases node with
          | reference name =>
              obtain ⟨rfl, position, rfl, resolved⟩ :=
                resolved_of_bindingPlace (value_of_located ended)
              exact ⟨name, [], position, [], .reference found, resolved, .nil _ _⟩
          | index base indices =>
              obtain ⟨next, middle, walked, rest⟩ := exists_of_bind ended
              obtain ⟨name, earlier, position, strides, addresses, resolved, tracks⟩ :=
                induction walked
              obtain ⟨strides', tracks'⟩ := tracks_of_placeChain rest
              exact ⟨name, earlier ++ indices, position, strides ++ strides',
                .index found addresses, resolved, tracks.append tracks'⟩
          | _ => simp [targetExpression, located, fail] at ended

/-! ## Walks that fail -/

theorem undisturbed_of_placeStep {operands : Operands} {index : ExpressionId} {place : Place}
    {start last : State} {failure : Failure} (gentle : (operands.evaluate index).Gentle)
    (ended : (holding place.handles do
      let container ← loadPlace place
      holding [container] do
        let key ← operands.evaluate index
        located (setup.program.spanOf index) (locateForWriting container key)) start =
      .failure failure last) : start.Undisturbed last := by
  obtain ⟨outer, stepped, rfl⟩ := failure_of_holding ended
  refine State.Undisturbed.trans ?_ (.releaseAll outer place.handles)
  rcases failure_bind stepped with loads | ⟨container, shared, loads, walked⟩
  · rw [state_of_failing_loadPlace loads]
    exact .refl start
  obtain ⟨_, rfl⟩ := loaded_of_loadPlace loads
  refine State.Undisturbed.trans (.onHeap start (.retain _ container)) ?_
  obtain ⟨inner, looked, rfl⟩ := failure_of_holding walked
  refine State.Undisturbed.trans ?_ (.releaseAll inner [container])
  rcases failure_bind looked with valued | ⟨key, keyed, valued, placed⟩
  · exact gentle.of_failure valued
  · obtain ⟨failure', placed⟩ := failure_of_located placed
    rw [state_of_failing_locateForWriting placed]
    exact (gentle.of_value valued).trans (.releaseAll keyed [key])

/-- A walk that fails has followed some of its indices, and disturbs nothing from there
on. -/
theorem tracks_of_failing_placeChain {fuel : Nat} {indices : List ExpressionId} {place : Place}
    {start last : State} {failure : Failure}
    (gentle : ∀ index ∈ indices, ((Nested.withFuel setup fuel).evaluate index).Gentle)
    (ended : placeChain setup (Nested.withFuel setup fuel).toOperands place indices start =
      .failure failure last) :
    ∃ earlier later strides next middle, indices = earlier ++ later ∧
      Tracks setup place earlier start strides next middle ∧ middle.Undisturbed last := by
  induction indices generalizing place start with
  | nil => cases ended
  | cons index others induction =>
      rcases failure_bind ended with stepped | ⟨next, middle, stepped, rest⟩
      · exact ⟨[], index :: others, [], place, start, rfl, .nil _ _,
          undisturbed_of_placeStep (gentle index List.mem_cons_self) stepped⟩
      · obtain ⟨container, key, keyed, heap, loaded, valued, located, rfl⟩ :=
          stride_of_placeStep stepped
        obtain ⟨earlier, later, strides, last, middle, rfl, tracks, undisturbed⟩ :=
          induction (fun other member => gentle other (List.mem_cons_of_mem _ member)) rest
        exact ⟨index :: earlier, later, _, last, middle, rfl,
          .cons fuel loaded valued located tracks, undisturbed⟩

/-- A target that cannot be walked disturbs nothing, once some of its indices have been
followed from its variable. -/
theorem tracks_of_failing_target {fuel : Nat} {target : ExpressionId} {start last : State}
    {failure : Failure}
    (quiet : ∀ {name indices}, setup.program.Addresses target name indices →
      ∀ index ∈ indices, setup.program.Quiet index)
    (ended : (Nested.withFuel setup fuel).target target start = .failure failure last) :
    start.Undisturbed last ∨
      ∃ name earlier later position strides place middle,
        setup.program.Addresses target name (earlier ++ later) ∧
        Tracks setup (.binding position name) earlier start strides place middle ∧
        middle.Undisturbed last := by
  induction fuel generalizing target failure with
  | zero => simp [Nested.withFuel, Nested.exhausted, stop] at ended
  | succ fuel induction =>
      change withExpression setup target _ start = _ at ended
      unfold withExpression at ended
      cases found : setup.program.expression? target with
      | none => simp [found, stop] at ended
      | some entry =>
          obtain ⟨node, span⟩ := entry
          rw [found] at ended
          cases node with
          | reference name =>
              obtain ⟨failure, unresolved⟩ := failure_of_located ended
              exact Or.inl (state_of_failing_bindingPlace unresolved ▸ .refl start)
          | index base indices =>
              rcases failure_bind ended with based | ⟨next, middle, walked, rest⟩
              · have inner : ∀ {name earlier}, setup.program.Addresses base name earlier →
                    ∀ index ∈ earlier, setup.program.Quiet index := by
                  intro name earlier addresses index member
                  exact quiet (.index found addresses) index (List.mem_append_left _ member)
                rcases induction inner based with undisturbed |
                  ⟨name, earlier, later, position, strides, place, middle, addresses, tracks,
                    undisturbed⟩
                · exact Or.inl undisturbed
                · refine Or.inr ⟨name, earlier, later ++ indices, position, strides, place, middle, ?_,
                    tracks, undisturbed⟩
                  rw [← List.append_assoc]
                  exact .index found addresses
              · obtain ⟨name, first, position, strides, addresses, resolved, tracks⟩ :=
                  tracks_of_target walked
                have gentle : ∀ index ∈ indices, ((Nested.withFuel setup fuel).evaluate index).Gentle :=
                  fun index member => (Nested.gentle
                    (quiet (.index found addresses) index (List.mem_append_right _ member)) fuel).1
                obtain ⟨earlier, later, strides', place, middle', rfl, tracks', undisturbed⟩ :=
                  tracks_of_failing_placeChain gentle rest
                refine Or.inr ⟨name, first ++ earlier, later, position, strides ++ strides', place,
                  middle', ?_, tracks.append tracks', undisturbed⟩
                rw [List.append_assoc]
                exact .index found addresses
          | _ =>
              cases ended
              exact Or.inl (.refl start)

end Evaluation

end ScriptEngine
