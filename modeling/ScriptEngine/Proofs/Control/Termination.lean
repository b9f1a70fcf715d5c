import ScriptEngine.Proofs.Control.Approximation
import ScriptEngine.Proofs.Control.Settling
import ScriptEngine.Proofs.Custody.Runs
import ScriptEngine.Proofs.Ownership.Shelter

/-!
# Termination

In a program in which nodes refer to earlier nodes, and that has no `while`, no
`do` and no `loop`, everything ends if there is a bound on the depth of calls.
The measure is lexicographic: a call leaves less room for further ones, a node
inside another one comes earlier, and each round of a `for` loop leaves fewer
items.  The items run out because the loop owns what it iterates over.

Runs are observed on the way: an observer that interrupts wherever the ledger is
out of order turns the order at the start of a loop into something to rely on,
and interrupts nothing.
-/

namespace ScriptEngine

open Evaluation (Settles SettlesFrom Triple)

variable {setup : Setup}

/-- The ledger is in order, whatever the handles at hand. -/
def State.Ordered (state : State) : Prop :=
  ∃ hand, (state.ledger hand).Orderly

/-- A number of calls are active, and only an observer may stop a run. -/
def Terms.atDepth (builtins : BuiltinTable) (limit depth : Nat) : Terms where
  builtins := builtins
  holds state := state.calls.depth = depth ∧ state.calls.limit = some limit
  stops reason := reason = .interrupted
  steady holds depth limit := ⟨depth.trans holds.1, limit.trans holds.2⟩

/-- The evaluator whose runs are observed. -/
noncomputable def Nested.supervised (setup : Setup) : Nat → Nested :=
  Nested.watched setup State.Ordered

variable {limit depth : Nat} {known : ExpressionId → Prop} {within : StatementId → Prop}

/-! ## Observers -/

theorem Evaluation.SettlesFrom.observed {α : Type} {terms : Terms} {start : State}
    {body : Nat → Evaluation α} {allowed : State → Prop} (interrupted : terms.stops .interrupted)
    (settles : allowed start → SettlesFrom terms start body) :
    SettlesFrom terms start fun fuel => Evaluation.observed allowed (body fuel) := by
  have stopped : (.stopped .interrupted : Outcome α).Meets terms := interrupted
  by_cases starts : allowed start
  · obtain ⟨outcome, meets, fuel, settled⟩ := settles starts
    refine ⟨Evaluation.observed allowed (body fuel) start, ?_, fuel, ?_⟩
    · rw [observed_run, if_pos starts, settled fuel le_rfl]
      cases outcome with
      | value result last =>
          simp only
          split
          · exact meets
          · exact stopped
      | failure failure last =>
          simp only
          split
          · exact meets
          · exact stopped
      | stopped reason => exact meets
    · intro more large
      simp only [observed_run, settled more large, settled fuel le_rfl]
  · refine ⟨.stopped .interrupted, stopped, 0, ?_⟩
    intro more _
    simp only [observed_run, if_neg starts]

theorem Evaluation.Settles.observed {α : Type} {terms : Terms} {body : Nat → Evaluation α}
    (allowed : State → Prop) (interrupted : terms.stops .interrupted)
    (settles : Settles terms body) :
    Settles terms fun fuel => Evaluation.observed allowed (body fuel) :=
  fun start holds => SettlesFrom.observed interrupted fun _ => settles start holds

/-! ## Loops over items -/

theorem Int64.toInt_add_one {number stop : Int64} (smaller : number.toInt < stop.toInt) :
    (number + 1).toInt = number.toInt + 1 := by
  have low := number.le_toInt
  have high := stop.toInt_lt
  rw [Int64.toInt_add, Int64.toInt_one]
  apply Int.bmod_eq_of_le_mul_two
  · omega
  · omega

namespace Items

/-- The container that the items are in. -/
def source? : Items → Option Address
  | .integers _ _ => none
  | .elements source _ | .entries source _ _ => some source

/-- How many items are left, if they are in a container with a payload. -/
def left (payload : Payload) : Items → Nat
  | .integers next stop => (stop.toInt - next.toInt).toNat
  | .elements _ position | .entries _ position _ => payload.offers.length - position

variable {heap heap' : Heap} {source value : Address} {items others : Items}

theorem of?_cases (found : Items.of? heap source = some items) :
    (∃ next stop, items = .integers next stop) ∨
      ∃ payload, heap.payload? source = some payload ∧ payload.IsContainer ∧
        items.source? = some source := by
  unfold Items.of? at found
  split at found
  · exact Or.inl ⟨_, _, (Option.some.inj found).symm⟩
  · rename_i elements payload
    exact Or.inr ⟨_, payload, trivial, by rw [← Option.some.inj found]; rfl⟩
  · rename_i entries payload
    exact Or.inr ⟨_, payload, trivial, by rw [← Option.some.inj found]; rfl⟩
  · simp at found

/-- The next item is taken from what is left. -/
theorem left_of_next? {payload : Payload}
    (backed : ∀ source ∈ items.source?, heap.payload? source = some payload)
    (next : items.next? heap = (some (value, others), heap')) :
    others.source? = items.source? ∧ others.left payload < items.left payload := by
  cases items with
  | integers first stop =>
      simp only [next?] at next
      split at next
      · rename_i smaller
        obtain ⟨_, rfl⟩ := Prod.mk.inj (Option.some.inj (Prod.mk.inj next).1)
        refine ⟨rfl, ?_⟩
        have successor := Int64.toInt_add_one smaller
        simp only [left, successor]
        omega
      · simp at next
  | elements source position =>
      simp only [next?] at next
      split at next
      · rename_i element found
        obtain ⟨_, rfl⟩ := Prod.mk.inj (Option.some.inj (Prod.mk.inj next).1)
        refine ⟨rfl, ?_⟩
        simp only [Heap.element?, backed source rfl] at found
        split at found
        · rename_i elements same
          have inside : position < elements.length := (List.getElem?_eq_some_iff.mp found).1
          simp only [left, Option.some.inj same, Payload.offers]
          omega
        · simp at found
      · simp at next
  | entries source position pairType =>
      simp only [next?] at next
      split at next
      · rename_i entry found
        obtain ⟨_, rfl⟩ := Prod.mk.inj (Option.some.inj (Prod.mk.inj next).1)
        refine ⟨rfl, ?_⟩
        simp only [Heap.entry?, Heap.entries, backed source rfl] at found
        split at found
        · rename_i entries same
          have inside : position < entries.length := (List.getElem?_eq_some_iff.mp found).1
          simp only [left, Option.some.inj same, Payload.offers, List.length_map]
          omega
        · simp at found
      · simp at next

end Items

/-! ## Rounds -/

namespace Evaluation

variable {nested : Nested} {licence : Licence} {property : Ledger → Prop} {payload : Payload}
  {items others : Items} {name : Name} {body : Block} {hand : Hand} {value : Address}
  {start last : State}

/-- After a round fewer items are left, and they are where they were. -/
theorem left_of_iteration (lasting : Ledger.Lasting licence property)
    (sound : nested.Sound property)
    (backed : ∀ source ∈ items.source?, start.heap.payload? source = some payload)
    (holds : Holding property depth hand start)
    (given : (items.next? start.heap).1 = some (value, others))
    (iterated : iteration nested (some (name, value)) body
      { start with heap := (items.next? start.heap).2 } = .value true last) :
    others.source? = items.source? ∧ others.left payload < items.left payload ∧
      Holding property depth hand last := by
  obtain ⟨followed, less⟩ := Items.left_of_next? backed (Prod.ext given rfl)
  have made := (Holding.stable lasting depth).gain (fashioned_next? items start.heap).makes holds
  rw [given] at made
  have round := iteration_triple lasting sound depth (some (name, value)) body hand
  exact ⟨followed, less, round.of_value made iterated⟩

/-- A loop does not get to more rounds than it has items. -/
theorem forEachFrom_rounds (lasting : Ledger.Lasting licence property)
    (sound : nested.Sound property) {source? : Option Address}
    (backed : ∀ {ledger}, property ledger → ∀ source ∈ source?,
      ledger.heap.payload? source = some payload)
    (same : items.source? = source?) (holds : Holding property depth hand start)
    {count : Nat} (enough : items.left payload < count) :
    forEachFrom nested name body count items start =
      forEachFrom nested name body (items.left payload + 1) items start := by
  induction left : items.left payload using Nat.strong_induction_on
    generalizing items start count with
  | _ left induction =>
  subst left
  obtain ⟨more, rfl⟩ : ∃ more, count = more + 1 := ⟨count - 1, by omega⟩
  simp only [forEachFrom, bind_run, onHeap, State.onHeap]
  cases given : (items.next? start.heap).1 with
  | none => rfl
  | some item =>
      obtain ⟨value, others⟩ := item
      simp only [bind_run]
      cases iterated : iteration nested (some (name, value)) body
          { start with heap := (items.next? start.heap).2 } with
      | value again last =>
          cases again with
          | false => rfl
          | true =>
              obtain ⟨followed, less, held⟩ := left_of_iteration lasting sound
                (same ▸ backed holds.1) holds given iterated
              have first := induction _ less (followed.trans same) held
                (show others.left payload < more by omega) rfl
              have second := induction _ less (followed.trans same) held
                (show others.left payload < items.left payload from less) rfl
              exact first.trans second.symm
      | failure failure last => rfl
      | stopped reason => rfl

theorem inLoop_rounds (lasting : Ledger.Lasting licence property)
    (sound : nested.Sound property) {source? : Option Address}
    (backed : ∀ {ledger}, property ledger → ∀ source ∈ source?,
      ledger.heap.payload? source = some payload)
    (same : items.source? = source?) (holds : Holding property depth hand start)
    {count : Nat} (enough : items.left payload < count) :
    inLoop (forEachFrom nested name body count items) start =
      inLoop (forEachFrom nested name body (items.left payload + 1) items) start := by
  have pushed : Holding property depth hand
      { start with loops := start.loops.push { scopeDepth := start.scopes.depth } } := holds
  have rounds := @forEachFrom_rounds _ _ _ _ _ _ name body _ _ lasting sound _ backed same pushed
    _ enough
  simp only [inLoop, ensuring]
  rw [rounds]

end Evaluation

namespace Nested.Settle

open Evaluation.Settles

variable {nested : Nat → Nested} {licence : Licence} {property : Ledger → Prop}
  (settle : Nested.Settle (.atDepth setup.builtins limit depth) known within nested)
include settle

/-- A loop ends if the items that it has left get fewer in every round. -/
theorem forEachFrom_ends (lasting : Ledger.Lasting licence property)
    (sound : ∀ fuel, (nested fuel).Sound property) {payload : Payload} {source? : Option Address}
    (backed : ∀ {ledger}, property ledger → ∀ source ∈ source?,
      ledger.heap.payload? source = some payload)
    (name : Name) {body : Block} (all : ∀ id ∈ body.statements, within id) (hand : Hand)
    (spent : Nat) {items : Items} (same : items.source? = source?) {start : State}
    (holds : Holding property depth hand start) (bounded : start.calls.limit = some limit) :
    SettlesFrom (.atDepth setup.builtins limit depth) start fun fuel =>
      Evaluation.forEachFrom (nested fuel) name body (fuel - spent) items := by
  induction left : items.left payload using Nat.strong_induction_on
    generalizing items spent start with
  | _ left induction =>
  subst left
  have fewer : ∀ fuel, spent + 1 ≤ fuel →
      Evaluation.forEachFrom (nested fuel) name body (fuel - spent) items start =
        Evaluation.forEachFrom (nested fuel) name body (fuel - (spent + 1) + 1) items start := by
    intro fuel enough
    have counted : fuel - spent = fuel - (spent + 1) + 1 := by omega
    rw [counted]
  refine SettlesFrom.congr ?_ fewer
  have next : SettlesFrom (.atDepth setup.builtins limit depth) start fun _ =>
      Evaluation.onHeap items.next? :=
    onHeap items.next? start ⟨holds.2, bounded⟩
  apply next.bind
  rintro item? middle started ⟨_, taken⟩
  obtain ⟨given, rfl⟩ : (items.next? start.heap).1 = item? ∧
      { start with heap := (items.next? start.heap).2 } = middle := by
    simpa [Evaluation.onHeap, State.onHeap] using taken
  cases item? with
  | none => exact pure () _ started
  | some item =>
      obtain ⟨value, others⟩ := item
      apply (settle.iteration (some (name, value)) all _ started).bind
      rintro again last ended ⟨fuel, iterated⟩
      cases again with
      | false => exact pure () _ ended
      | true =>
          obtain ⟨followed, less, held⟩ := Evaluation.left_of_iteration lasting (sound fuel)
            (same ▸ backed holds.1) holds given iterated
          exact induction _ less (spent + 1) (followed.trans same) held ended.2 rfl

end Nested.Settle

/-! ## Loops over what an expression gives -/

/-- Whoever loops over a container of his own shelters it. -/
theorem Items.sheltered {state : State} {hand : Hand} {source : Address} {items : Items}
    (orderly : (state.ledger (hand.own source)).Orderly)
    (found : Items.of? state.heap source = some items)
    (inside : ∀ next stop, items ≠ .integers next stop) :
    ∃ payload : Payload, payload.IsContainer ∧ items.source? = some source ∧
      (state.ledger hand).Shelters source payload := by
  rcases of?_cases found with ⟨next, stop, rfl⟩ | ⟨payload, present, container, same⟩
  · exact absurd rfl (inside next stop)
  · exact ⟨payload, container, same, orderly, present⟩

/-- Integers are in no container. -/
theorem Ledger.Orderly.only {ledger : Ledger} (_ : ledger.Orderly) :
    ∀ address ∈ (none : Option Address), ledger.heap.payload? address = some (.vector []) :=
  nofun

theorem Ledger.Shelters.only {source : Address} {payload : Payload} {ledger : Ledger}
    (shelters : ledger.Shelters source payload) :
    ∀ address ∈ some source, ledger.heap.payload? address = some payload := by
  intro address member
  rw [← Option.mem_some_iff.mp member]
  exact shelters.payload

/-- The same evaluator, but loops may go on for another number of rounds. -/
def Nested.withRounds (nested : Nested) (rounds : Nat) : Nested :=
  { nested with iterations := rounds }

@[simp] theorem Nested.withRounds_toOperands (nested : Nested) (rounds : Nat) :
    (nested.withRounds rounds).toOperands = nested.toOperands := rfl

@[simp] theorem Nested.withRounds_iterations (nested : Nested) (rounds : Nat) :
    (nested.withRounds rounds).iterations = rounds := rfl

namespace Evaluation

variable {nested : Nested}

theorem iteration_withRounds (nested : Nested) (rounds : Nat)
    (binding : Option (Name × Address)) (body : Block) :
    iteration (nested.withRounds rounds) binding body = iteration nested binding body := by
  have same : ∀ statements,
      sequence (nested.withRounds rounds) statements = sequence nested statements := by
    intro statements
    induction statements with
    | nil => rfl
    | cons statement others induction =>
        simp only [sequence, induction]
        rfl
  simp only [iteration, same]

theorem forEachFrom_withRounds (nested : Nested) (rounds : Nat) (name : Name) (body : Block)
    (count : Nat) (items : Items) :
    forEachFrom (nested.withRounds rounds) name body count items =
      forEachFrom nested name body count items := by
  induction count generalizing items with
  | zero => rfl
  | succ count induction => simp only [forEachFrom, iteration_withRounds, induction]

/-- A loop over what an expression gives has a last round, whatever its body does. -/
theorem forEach_rounds (orderly : nested.Sound Ledger.Orderly)
    (shelters : ∀ {source payload}, payload.IsContainer →
      nested.Sound (Ledger.Shelters source payload))
    (name : Name) (iterable : ExpressionId) (body : Block) {start : State}
    (ordered : start.Ordered) :
    ∃ rounds, ∀ count, rounds ≤ count →
      forEach setup (nested.withRounds count) name iterable body start =
        forEach setup (nested.withRounds rounds) name iterable body start := by
  obtain ⟨hand, ordered⟩ := ordered
  have lasting := @Ledger.Orderly.step ⟨True, True⟩
  unfold forEach
  simp only [forEachFrom_withRounds, bind_run, Nested.withRounds_toOperands,
    Nested.withRounds_iterations]
  cases evaluated : nested.evaluate iterable start with
  | failure failure last => exact ⟨0, fun _ _ => rfl⟩
  | stopped reason => exact ⟨0, fun _ _ => rfl⟩
  | value source middle =>
      have held : Holding Ledger.Orderly start.calls.depth (hand.own source) middle :=
        ((orderly.operands _).evaluate iterable hand).of_value ⟨ordered, rfl⟩ evaluated
      cases found : Items.of? middle.heap source with
      | none => exact ⟨0, fun _ _ => by simp only [read, found]⟩
      | some items =>
          rcases Items.of?_cases found with ⟨next, stop, rfl⟩ | ⟨payload, present, container, same⟩
          · refine ⟨(Items.integers next stop).left (.vector []) + 1, ?_⟩
            intro count enough
            have given : Holding Ledger.Orderly start.calls.depth hand
                (middle.releaseAll [source]) := by
              apply (Holding.stable lasting _).release
              rw [Hand.ownAll_cons, Hand.ownAll_nil]
              exact held
            simp only [read, found]
            exact inLoop_rounds lasting orderly Ledger.Orderly.only rfl given enough
          · refine ⟨items.left payload + 1, ?_⟩
            intro count enough
            have sheltered : Holding (Ledger.Shelters source payload) start.calls.depth hand middle :=
              ⟨⟨held.1, present⟩, held.2⟩
            have rounds := @inLoop_rounds _ _ _ _ _ _ name body _ _
              (@Ledger.Shelters.step ⟨True, True⟩ _ _ container) (shelters container) _
              Ledger.Shelters.only same sheltered _ enough
            simp only [read, found]
            cases items with
            | integers next stop => simp [Items.source?] at same
            | elements source position =>
                simp only [holding, ensuring]
                rw [rounds]
            | entries source position pairType =>
                simp only [holding, ensuring]
                rw [rounds]

end Evaluation

namespace Nested

open Evaluation.Settles

variable (lawful : setup.builtins.Lawful)
include lawful

theorem supervised_orderly (fuel : Nat) : (supervised setup fuel).Sound Ledger.Orderly :=
  @watched_sound ⟨True, True⟩ _ _ Ledger.Orderly.step lawful.abides _
    (fun _ hand orderly => ⟨hand, orderly⟩) fuel

theorem supervised_shelters {source : Address} {payload : Payload}
    (container : payload.IsContainer) (fuel : Nat) :
    (supervised setup fuel).Sound (Ledger.Shelters source payload) :=
  @watched_sound ⟨True, True⟩ _ _ (Ledger.Shelters.step container) lawful.abides _
    (fun _ hand shelters => ⟨hand.own source, shelters.orderly⟩) fuel

omit lawful in
theorem supervised_iterations (fuel : Nat) : (supervised setup fuel).iterations = fuel - 1 := by
  cases fuel with
  | zero => rfl
  | succ fuel => rfl

theorem forEach_ends
    (settle : Nested.Settle (.atDepth setup.builtins limit depth) known within (supervised setup))
    (name : Name) {iterable : ExpressionId} (here : known iterable) {body : Block}
    (all : ∀ id ∈ body.statements, within id) {start : State} (ordered : start.Ordered)
    (started : Terms.holds (.atDepth setup.builtins limit depth) start) :
    SettlesFrom (.atDepth setup.builtins limit depth) start fun fuel =>
      Evaluation.forEach setup (supervised setup fuel) name iterable body := by
  obtain ⟨hand, orderly⟩ := ordered
  have lasting := @Ledger.Orderly.step ⟨True, True⟩
  unfold Evaluation.forEach
  simp only [supervised_iterations]
  apply (settle.operands.evaluate here start started).bind
  rintro source middle reached ⟨fuel, evaluated⟩
  have held : Holding Ledger.Orderly depth (hand.own source) middle :=
    (((supervised_orderly lawful fuel).operands depth).evaluate iterable hand).of_value
      ⟨orderly, started.1⟩ evaluated
  apply (read _ middle reached).bind
  rintro items? _ _ ⟨_, looked⟩
  obtain ⟨_, rfl⟩ := Outcome.value.inj looked
  split
  · apply (release [source] middle reached).bind
    rintro _ _ _ ⟨_, released⟩
    obtain ⟨_, rfl⟩ := Outcome.value.inj released
    have given : Holding Ledger.Orderly depth hand (middle.releaseAll [source]) := by
      apply (Holding.stable lasting depth).release
      rw [Hand.ownAll_cons, Hand.ownAll_nil]
      exact held
    apply SettlesFrom.inLoop
    exact settle.forEachFrom_ends lasting (supervised_orderly lawful) Ledger.Orderly.only name all
      hand 1 rfl given reached.2
  · rename_i items inside found
    obtain ⟨payload, container, same, shelters⟩ := Items.sheltered held.1 found inside
    apply SettlesFrom.holding
    apply SettlesFrom.inLoop
    exact settle.forEachFrom_ends (@Ledger.Shelters.step ⟨True, True⟩ _ _ container)
      (supervised_shelters lawful container) Ledger.Shelters.only name all hand 1 same
      ⟨shelters, reached.1⟩ reached.2
  · apply SettlesFrom.holding
    apply (read _ middle reached).bind
    rintro kind _ _ ⟨_, looked⟩
    obtain ⟨_, rfl⟩ := Outcome.value.inj looked
    exact SettlesFrom.located (fail (by exact trivial) _ reached) _

end Nested

/-! ## Programs without other loops -/

/-- A loop that goes on as long as its condition or its body lets it. -/
def Statement.isUnbounded : Statement → Bool
  | .whileLoop .. | .doWhile .. | .forever _ => true
  | _ => false

/-- There is no `while`, no `do` and no `loop`. -/
def Program.Bounded (program : Program) : Prop :=
  ∀ located ∈ program.statements, located.node.isUnbounded = false

instance (program : Program) : Decidable program.Bounded :=
  inferInstanceAs (Decidable (∀ located ∈ program.statements, located.node.isUnbounded = false))

theorem Program.Bounded.of_statement? {program : Program} (bounded : program.Bounded)
    {id : StatementId} {located : Located Statement}
    (found : program.statement? id = some located) : located.node.isUnbounded = false :=
  bounded located (Array.mem_of_getElem? found)

namespace Nested

open Evaluation.Settles

variable (wellFormed : setup.program.WellFormed)
include wellFormed

/-- Expressions refer to earlier ones. -/
theorem supervised_operands {terms : Terms} (interrupted : terms.stops .interrupted)
    (same : setup.builtins = terms.builtins)
    (calls : ∀ {function}, setup.program.HasFunction function → ∀ arguments span,
      Settles terms fun fuel =>
        Evaluation.callUser setup (Evaluation.runCall setup (supervised setup fuel)) function
          arguments span) :
    Operands.Settle terms setup.program.HasExpression fun fuel =>
      (supervised setup fuel).toOperands := by
  have earlier : ∀ size, Operands.Settle terms
      (fun id => setup.program.HasExpression id ∧ id.index < size)
      fun fuel => (supervised setup fuel).toOperands := by
    intro size
    induction size with
    | zero => exact ⟨fun ⟨_, small⟩ => absurd small (Nat.not_lt_zero _),
        fun ⟨_, small⟩ => absurd small (Nat.not_lt_zero _),
        fun ⟨_, small⟩ => absurd small (Nat.not_lt_zero _)⟩
    | succ size settle =>
        have inside : ∀ {id located}, setup.program.expression? id = some located →
            id.index < size + 1 → ∀ operand ∈ located.node.operands,
              setup.program.HasExpression operand ∧ operand.index < size := by
          intro id located found small operand member
          have less := wellFormed.operands found operand member
          exact ⟨wellFormed.hasOperands found operand member, by omega⟩
        have evaluate : ∀ {id}, setup.program.HasExpression id ∧ id.index < size + 1 →
            Settles terms fun fuel => (supervised setup fuel).evaluate id := by
          rintro id ⟨known, small⟩
          obtain ⟨located, found⟩ := known.found
          apply Settles.succ
          apply Settles.observed _ interrupted
          apply withExpression found
          apply settle.expression same (inside found small) (wellFormed.expressionTypes found)
          intro function called
          exact calls (wellFormed.callees found function called)
        refine ⟨evaluate, ?_, ?_⟩
        · rintro id ⟨known, small⟩
          obtain ⟨located, found⟩ := known.found
          apply Settles.succ
          apply Settles.observed _ interrupted
          exact withExpression found
            (settle.sharedExpression (inside found small) (evaluate ⟨known, small⟩) _)
        · rintro id ⟨known, small⟩
          obtain ⟨located, found⟩ := known.found
          apply Settles.succ
          apply Settles.observed _ interrupted
          exact withExpression found (settle.targetExpression (inside found small) _)
  constructor
  · intro id known
    exact (earlier (id.index + 1)).evaluate ⟨known, Nat.lt_succ_self _⟩
  · intro id known
    exact (earlier (id.index + 1)).share ⟨known, Nat.lt_succ_self _⟩
  · intro id known
    exact (earlier (id.index + 1)).target ⟨known, Nat.lt_succ_self _⟩

/-- A call that there is room for ends if calls inside it do. -/
theorem supervised_callUser
    (deeper : depth < limit → Nested.Settle (.atDepth setup.builtins limit (depth + 1))
      setup.program.HasExpression setup.program.HasStatement (supervised setup))
    {id : FunctionId} (known : setup.program.HasFunction id) (arguments : List Address)
    (callSite : Span) :
    Settles (.atDepth setup.builtins limit depth) fun fuel =>
      Evaluation.callUser setup (Evaluation.runCall setup (supervised setup fuel)) id arguments
        callSite := by
  let outer := Terms.atDepth setup.builtins limit depth
  let inner := Terms.atDepth setup.builtins limit (depth + 1)
  have same : inner.builtins = outer.builtins := rfl
  have stops : ∀ reason, inner.stops reason → outer.stops reason := fun _ stopped => stopped
  have leaves : ∀ {before after : State}, inner.holds before → after.calls = before.calls.pop →
      outer.holds after := by
    rintro before after ⟨deeper, limited⟩ popped
    constructor
    · rw [popped, Calls.depth, Calls.pop, Array.size_pop]
      exact Nat.sub_eq_of_eq_add deeper
    · rw [popped]
      exact limited
  obtain ⟨function, found⟩ := known.found
  apply Settles.callUser found arguments callSite
  apply entered same stops leaves
  rintro state frame ⟨here, limited⟩ room
  have below : depth < limit := by
    rw [Calls.exceeded?, limited, here, Option.filter_some] at room
    simpa using room
  constructor
  · refine ⟨?_, limited⟩
    rw [Calls.depth, Calls.push, Array.size_push]
    exact congrArg Nat.succ here
  · exact (deeper below).runBody (wellFormed.bodies found) arguments

variable (bounded : setup.program.Bounded) (lawful : setup.builtins.Lawful)
include bounded lawful

/-- Statements contain earlier ones. -/
theorem supervised_statements
    (operands : Operands.Settle (.atDepth setup.builtins limit depth) setup.program.HasExpression
      fun fuel => (supervised setup fuel).toOperands) :
    Nested.Settle (.atDepth setup.builtins limit depth) setup.program.HasExpression
      setup.program.HasStatement (supervised setup) := by
  have interrupted : Terms.stops (.atDepth setup.builtins limit depth) .interrupted := rfl
  have earlier : ∀ size, Nested.Settle (.atDepth setup.builtins limit depth)
      setup.program.HasExpression (fun id => setup.program.HasStatement id ∧ id.index < size)
      (supervised setup) := by
    intro size
    induction size with
    | zero => exact ⟨operands, fun ⟨_, small⟩ => absurd small (Nat.not_lt_zero _)⟩
    | succ size settle =>
        refine ⟨operands, ?_⟩
        rintro id ⟨known, small⟩
        obtain ⟨located, found⟩ := known.found
        have inside : ∀ part ∈ located.node.parts,
            setup.program.HasStatement part ∧ part.index < size := by
          intro part member
          have less := wellFormed.parts found part member
          exact ⟨wellFormed.hasParts found part member, by omega⟩
        have values := wellFormed.values found
        have statement : ∀ start, Terms.holds (.atDepth setup.builtins limit depth) start →
            start.Ordered → SettlesFrom (.atDepth setup.builtins limit depth) start fun fuel =>
              Evaluation.statement setup (supervised setup fuel) id located.node located.span := by
          intro start started ordered
          by_cases loops : located.node.Loops
          · cases node : located.node with
            | forEach name iterable body =>
                rw [node] at inside values
                have ends := forEach_ends lawful settle name (values iterable List.mem_cons_self)
                  inside ordered started
                exact ends.located _
            | whileLoop | doWhile | forever =>
                have never := bounded.of_statement? found
                rw [node] at never
                exact Bool.noConfusion never
            | _ =>
                rw [node] at loops
                exact loops.elim
          · exact settle.statement values inside (wellFormed.declarationTypes found) _
              (absurd · loops) start started
        apply Settles.succ
        intro start started
        apply SettlesFrom.observed interrupted
        intro ordered
        show SettlesFrom _ start fun fuel => Evaluation.withStatement setup id _
        unfold Evaluation.withStatement
        rw [found]
        exact statement start started ordered
  constructor
  · exact operands
  · intro id known
    exact (earlier (id.index + 1)).execute ⟨known, Nat.lt_succ_self _⟩

/-- A call leaves less room for further ones. -/
theorem supervised_settle (limit depth : Nat) :
    Nested.Settle (.atDepth setup.builtins limit depth) setup.program.HasExpression
      setup.program.HasStatement (supervised setup) := by
  induction room : limit - depth using Nat.strong_induction_on generalizing depth with
  | _ room induction =>
  subst room
  have interrupted : Terms.stops (.atDepth setup.builtins limit depth) .interrupted := rfl
  apply supervised_statements wellFormed bounded lawful
  apply supervised_operands wellFormed interrupted rfl
  intro id known
  apply supervised_callUser wellFormed _ known
  intro below
  exact induction (limit - (depth + 1)) (by omega) (depth + 1) rfl

end Nested

/-! ## Runs that nobody observes -/

/-- With enough fuel there is a value or a failure, which more fuel does not
change. -/
def Evaluation.EndsFrom {α : Type} (start : State) (body : Nat → Evaluation α) : Prop :=
  ∃ outcome : Outcome α, (∀ reason, outcome ≠ .stopped reason) ∧
    ∃ fuel, ∀ more, fuel ≤ more → body more start = outcome

/-- What settles and is not interrupted ends, observed or not. -/
theorem Evaluation.SettlesFrom.ends {α : Type} {builtins : BuiltinTable} {start : State}
    {observed body : Nat → Evaluation α}
    (settles : SettlesFrom (.atDepth builtins limit depth) start observed)
    (below : ∀ fuel, (observed fuel).Below .interrupted (body fuel))
    (uninterrupted : ∀ fuel, observed fuel start ≠ .stopped .interrupted) :
    EndsFrom start body := by
  obtain ⟨outcome, meets, fuel, settled⟩ := settles
  have goesOn : outcome ≠ .stopped .interrupted := by
    rw [← settled fuel le_rfl]
    exact uninterrupted fuel
  refine ⟨outcome, ?_, fuel, ?_⟩
  · rintro reason rfl
    have interrupted : reason = .interrupted := meets
    rw [interrupted] at goesOn
    exact goesOn rfl
  · intro more enough
    rcases below more start with same | interrupted
    · exact same.symm.trans (settled more enough)
    · exact absurd interrupted (uninterrupted more)

end ScriptEngine
