import ScriptEngine.Proofs.Control.Approximation
import ScriptEngine.Proofs.Control.Tracks

/-!
# Assignments step by step

An assignment walks to its target, evaluates and copies the value, stores it, and gives
the handles of the place back.  In the meantime names stay bound where they are, but
what they are bound to can change, and so can the slots that the walk came through.
-/

namespace ScriptEngine

open Evaluation

theorem Except.eq_ok_of_toOption {ε α : Type} {result : Except ε α} {value : α}
    (given : result.toOption = some value) : result = .ok value := by
  cases result with
  | error cause => cases given
  | ok other =>
      cases given
      rfl

/-! ## Names that stay bound -/

theorem Scopes.resolve?_congr {scopes later : Scopes} (depth : later.depth = scopes.depth)
    (binds : ∀ position name, later.binds position name = scopes.binds position name)
    (name : Name) (floor : Nat) : later.resolve? name floor = scopes.resolve? name floor := by
  have searched : ∀ count, later.search name floor count = scopes.search name floor count := by
    intro count
    induction count with
    | zero => rfl
    | succ count induction => rw [search, search, binds, induction]
  rw [resolve?, resolve?, depth, searched, binds]

theorem Calls.scopeFloor_entered (calls : Calls) : calls.entered.scopeFloor = calls.scopeFloor := by
  unfold scopeFloor
  rw [current?_entered]
  cases calls.current? with
  | some frame => rfl
  | none => rfl

/-- A name is resolved to the frame that it was. -/
theorem State.Keeps.resolve?_eq {before after : State} (keeps : before.Keeps .expression after)
    (name : Name) :
    after.scopes.resolve? name after.calls.scopeFloor =
      before.scopes.resolve? name before.calls.scopeFloor := by
  have floors := congrArg Calls.scopeFloor keeps.calls
  rw [Calls.scopeFloor_entered, Calls.scopeFloor_entered] at floors
  rw [floors]
  apply Scopes.resolve?_congr keeps.depth
  intro position name
  rw [Bool.eq_iff_iff]
  constructor
  · intro bound
    rcases keeps.binds position name bound with old | ⟨statement, _⟩
    · exact old
    · cases statement
  · exact keeps.bound position name

namespace Evaluation

/-! ## Chains of places -/

/-- Places in which strides stand one after the other, up to the one that the last of
them leads to. -/
inductive Chain (leads : Stride → Place → Prop) : Place → List Stride → Place → Prop where
  | nil (place : Place) : Chain leads place [] place
  | cons {stride : Stride} {next last : Place} {others : List Stride} :
      leads stride next → Chain leads next others last →
      Chain leads stride.place (stride :: others) last

/-- The place is a slot of the container. -/
def Stride.Enters (stride : Stride) (next : Place) : Prop :=
  next.handles = [stride.container]

namespace Chain

variable {leads : Stride → Place → Prop} {place last : Place} {strides : List Stride}

theorem exists_of_mem (chain : Chain leads place strides last) {stride : Stride}
    (member : stride ∈ strides) : ∃ next, leads stride next := by
  induction chain with
  | nil place => simp at member
  | cons first _ induction =>
      rcases List.mem_cons.mp member with rfl | inside
      · exact ⟨_, first⟩
      · exact induction inside

theorem handles_last (chain : Chain Stride.Enters place strides last) {stride : Stride}
    (member : stride ∈ strides) : ∃ container, last.handles = [container] := by
  induction chain generalizing stride with
  | nil place => simp at member
  | @cons first next last others enters rest induction =>
      cases rest with
      | nil => exact ⟨first.container, enters⟩
      | @cons second _ _ others _ _ => exact induction List.mem_cons_self

end Chain

variable {setup : Setup}

theorem Tracks.chain {place last : Place} {indices : List ExpressionId} {start reached : State}
    {strides : List Stride} (tracks : Tracks setup place indices start strides last reached) :
    Chain Stride.Enters place strides last := by
  induction tracks with
  | nil place state => exact .nil place
  | @cons place next last container key index others start keyed reached heap strides fuel loaded
      valued located _ induction =>
      have written := congrArg Prod.fst located
      have enters : Stride.Enters ⟨place, container, key, keyed, heap⟩ next :=
        Heap.handles_of_locate written
      exact .cons enters induction

theorem Tracks.keeps {place last : Place} {indices : List ExpressionId} {start reached : State}
    {strides : List Stride} (tracks : Tracks setup place indices start strides last reached) :
    start.Keeps .expression reached := by
  induction tracks with
  | nil place state => exact .refl _ state
  | @cons place next last container key index others start keyed reached heap strides fuel loaded
      valued located _ induction =>
      have related := Nested.withFuel_related (.keeping setup) fuel
      have retained := (State.Keeps.refl .expression start).aside (start.heap.retain container)
        start.literals start.output
      have evaluated : State.Keeps .expression _ keyed :=
        (related.operands.evaluate index).of_value valued
      exact ((retained.trans evaluated).aside _ keyed.literals keyed.output).trans induction

/-- The walk from a place along indices, if each of them can be followed. -/
def follow? (setup : Setup) (fuel : Nat) :
    Place → List ExpressionId → State → Option (List Stride × Place × State)
  | place, [], state => some ([], place, state)
  | place, index :: others, state => do
      let container ← (place.load state.scopes state.heap).toOption
      let (key, keyed) ← ((Nested.withFuel setup fuel).evaluate index
        { state with heap := state.heap.retain container }).value?
      let next ← (keyed.heap.locate container key .write).1.toOption
      let heap := (keyed.heap.locate container key .write).2
      let (strides, last, reached) ← follow? setup fuel next others
        ((State.releaseAll { keyed with heap := heap } [container]).releaseAll place.handles)
      return (⟨place, container, key, keyed, heap⟩ :: strides, last, reached)

theorem tracks_of_follow? {fuel : Nat} {indices : List ExpressionId} {place last : Place}
    {start reached : State} {strides : List Stride}
    (followed : follow? setup fuel place indices start = some (strides, last, reached)) :
    Tracks setup place indices start strides last reached := by
  induction indices generalizing place start strides with
  | nil =>
      cases followed
      exact .nil _ _
  | cons index others induction =>
      simp only [follow?, Option.bind_eq_bind, Option.bind_eq_some_iff, Option.pure_def] at followed
      obtain ⟨container, loaded, ⟨key, keyed⟩, valued, next, located, ⟨strides', last', reached'⟩, rest,
        same⟩ := followed
      cases same
      have found : keyed.heap.locate container key .write =
          (.ok next, (keyed.heap.locate container key .write).2) :=
        Prod.ext (Except.eq_ok_of_toOption located) rfl
      exact .cons fuel (Except.eq_ok_of_toOption loaded) (Outcome.eq_of_value? valued) found
        (induction rest)

end Evaluation

/-! ## Walks that are the only ones -/

namespace Evaluation

variable {setup : Setup}

/-- However much fuel an evaluation takes, it gives the same. -/
theorem evaluate_unique {fuel fuel' : Nat} {id : ExpressionId} {start last last' : State}
    {result result' : Address}
    (first : (Nested.withFuel setup fuel).evaluate id start = .value result last)
    (second : (Nested.withFuel setup fuel').evaluate id start = .value result' last') :
    result = result' ∧ last = last' := by
  have grown : ∀ {less more : Nat} {result last}, less ≤ more →
      (Nested.withFuel setup less).evaluate id start = .value result last →
      (Nested.withFuel setup more).evaluate id start = .value result last := by
    intro less more result last fewer ended
    have below := (@Nested.withFuel_below setup less more fewer).operands.evaluate id
    rcases below start with same | stopped
    · rw [← same, ended]
    · simp [stopped] at ended
  have same := (grown (Nat.le_max_left fuel fuel') first).symm.trans
    (grown (Nat.le_max_right fuel fuel') second)
  exact ⟨(Outcome.value.inj same).1, (Outcome.value.inj same).2⟩

theorem Tracks.unique {place last last' : Place} {indices : List ExpressionId}
    {start reached reached' : State} {strides strides' : List Stride}
    (first : Tracks setup place indices start strides last reached)
    (second : Tracks setup place indices start strides' last' reached') :
    strides = strides' ∧ last = last' ∧ reached = reached' := by
  induction first generalizing strides' with
  | nil place state =>
      cases second
      exact ⟨rfl, rfl, rfl⟩
  | cons fuel loaded valued located _ induction =>
      cases second with
      | cons fuel' loaded' valued' located' rest =>
          cases loaded.symm.trans loaded'
          obtain ⟨rfl, rfl⟩ := evaluate_unique valued valued'
          cases located.symm.trans located'
          obtain ⟨rfl, rfl, rfl⟩ := induction rest
          exact ⟨rfl, rfl, rfl⟩

end Evaluation

theorem Program.Addresses.unique {program : Program} {target : ExpressionId} {name name' : Name}
    {indices indices' : List ExpressionId} (first : program.Addresses target name indices)
    (second : program.Addresses target name' indices') : name = name' ∧ indices = indices' := by
  induction first generalizing indices' with
  | reference found =>
      cases second with
      | reference found' =>
          cases found.symm.trans found'
          exact ⟨rfl, rfl⟩
      | index found' _ => cases found.symm.trans found'
  | index found _ induction =>
      cases second with
      | reference found' => cases found.symm.trans found'
      | index found' based =>
          cases found.symm.trans found'
          obtain ⟨rfl, rfl⟩ := induction based
          exact ⟨rfl, rfl⟩

/-! ## Performing an assignment -/

/-- What happens in an assignment: the variable at the root of its target and the
strides from there to the place, the value, its copy, and the states in between. -/
structure Assignment where
  name : Name
  position : Nat
  indices : List ExpressionId
  strides : List Stride
  place : Place
  walked : State
  stored : Address
  evaluated : State
  copied : Address
  duplicated : State
  written : State

namespace Assignment

/-- The state in which the handles of the place have been given back. -/
def last (assignment : Assignment) : State :=
  assignment.written.releaseAll assignment.place.handles

/-- The assignment is that of an expression, with as much fuel as it takes. -/
structure Performs (setup : Setup) (target value : ExpressionId) (start : State)
    (assignment : Assignment) : Prop where
  addresses : setup.program.Addresses target assignment.name assignment.indices
  resolved : start.scopes.resolve? assignment.name start.calls.scopeFloor =
    some assignment.position
  tracks : Tracks setup (.binding assignment.position assignment.name) assignment.indices start
    assignment.strides assignment.place assignment.walked
  valued : ∃ fuel, (Nested.withFuel setup fuel).evaluate value assignment.walked =
    .value assignment.stored assignment.evaluated
  copies : copy assignment.stored assignment.evaluated =
    .value assignment.copied assignment.duplicated
  writes : storeIn assignment.place assignment.stored assignment.duplicated =
    .value () assignment.written

variable {setup : Setup} {target value : ExpressionId} {start : State} {assignment : Assignment}

/-- The assignment of a value to the place to which indices lead from a variable. -/
def perform? (setup : Setup) (fuel : Nat) (name : Name) (indices : List ExpressionId)
    (value : ExpressionId) (start : State) : Option Assignment := do
  let position ← start.scopes.resolve? name start.calls.scopeFloor
  let (strides, place, walked) ← follow? setup fuel (.binding position name) indices start
  let (stored, evaluated) ← ((Nested.withFuel setup fuel).evaluate value walked).value?
  let (copied, duplicated) ← (copy stored evaluated).value?
  let (_, written) ← (storeIn place stored duplicated).value?
  return ⟨name, position, indices, strides, place, walked, stored, evaluated, copied, duplicated, written⟩

theorem performs_of_perform? {fuel : Nat} {name : Name} {indices : List ExpressionId}
    (addresses : setup.program.Addresses target name indices)
    (performed : perform? setup fuel name indices value start = some assignment) :
    assignment.Performs setup target value start := by
  simp only [perform?, Option.bind_eq_bind, Option.bind_eq_some_iff, Option.pure_def] at performed
  obtain ⟨position, resolved, ⟨strides, place, walked⟩, followed, ⟨stored, evaluated⟩, valued,
    ⟨copied, duplicated⟩, copies, ⟨_, written⟩, writes, same⟩ := performed
  cases same
  exact ⟨addresses, resolved, tracks_of_follow? followed, ⟨fuel, Outcome.eq_of_value? valued⟩,
    Outcome.eq_of_value? copies, Outcome.eq_of_value? writes⟩

theorem performs_of_assign {fuel : Nat} {copied : Address} {last : State}
    (ended : assign (Nested.withFuel setup fuel).toOperands target value start =
      .value copied last) :
    ∃ assignment : Assignment, assignment.Performs setup target value start ∧
      assignment.copied = copied ∧ assignment.last = last := by
  obtain ⟨place, walked, stored, evaluated, duplicated, written, targeted, valued, copies, writes,
    rfl⟩ := exists_of_assign ended
  obtain ⟨name, indices, position, strides, addresses, resolved, tracks⟩ :=
    tracks_of_target targeted
  exact ⟨⟨name, position, indices, strides, place, walked, stored, evaluated, copied, duplicated,
    written⟩, ⟨addresses, resolved, tracks, ⟨fuel, valued⟩, copies, writes⟩, rfl, rfl⟩

theorem performs_of_evaluate {fuel : Nat} {id : ExpressionId} {span : Span} {copied : Address}
    {last : State} (found : setup.program.expression? id = some ⟨.assign target value, span⟩)
    (ended : (Nested.withFuel setup fuel).evaluate id start = .value copied last) :
    ∃ assignment : Assignment, assignment.Performs setup target value start ∧
      assignment.copied = copied ∧ assignment.last = last := by
  cases fuel with
  | zero => cases ended
  | succ fuel =>
      change withExpression setup id _ start = _ at ended
      unfold withExpression at ended
      rw [found] at ended
      exact performs_of_assign (value_of_located ended)

/-- There is one way only to perform an assignment. -/
theorem Performs.unique {other : Assignment} (performs : assignment.Performs setup target value start)
    (performs' : other.Performs setup target value start) : assignment = other := by
  obtain ⟨addresses, resolved, tracks, ⟨fuel, valued⟩, copies, writes⟩ := performs
  obtain ⟨addresses', resolved', tracks', ⟨fuel', valued'⟩, copies', writes'⟩ := performs'
  cases assignment with
  | mk name position indices strides place walked stored evaluated copied duplicated written =>
      cases other
      obtain ⟨rfl, rfl⟩ := addresses.unique addresses'
      cases resolved.symm.trans resolved'
      obtain ⟨rfl, rfl, rfl⟩ := tracks.unique tracks'
      obtain ⟨rfl, rfl⟩ := evaluate_unique valued valued'
      cases copies.symm.trans copies'
      cases writes.symm.trans writes'
      rfl

theorem Performs.duplicated_eq (performs : assignment.Performs setup target value start) :
    assignment.duplicated =
      { assignment.evaluated with
        heap := (assignment.evaluated.heap.copy assignment.stored).2 } := by
  have copies := performs.copies
  simp only [copy, onHeap, State.onHeap, Outcome.value.injEq] at copies
  exact copies.2.symm

/-- An assignment leaves the stacks as they were. -/
theorem Performs.keeps (performs : assignment.Performs setup target value start) :
    start.Keeps .expression assignment.last := by
  obtain ⟨fuel, valued⟩ := performs.valued
  have related := Nested.withFuel_related (.keeping setup) fuel
  have walked := performs.tracks.keeps
  have evaluated : State.Keeps .expression assignment.walked assignment.evaluated :=
    (related.operands.evaluate value).of_value valued
  have stores : (storeIn assignment.place assignment.stored).Keeps .expression :=
    @Related.storeIn setup _ (.keeping setup) assignment.place assignment.stored
  have written := stores.of_value performs.writes
  have duplicated := (State.Keeps.refl .expression assignment.evaluated).aside
    (assignment.evaluated.heap.copy assignment.stored).2 assignment.evaluated.literals
    assignment.evaluated.output
  rw [performs.duplicated_eq] at written
  exact ((walked.trans evaluated).trans (duplicated.trans written)).aside _ _ _

end Assignment

end ScriptEngine
