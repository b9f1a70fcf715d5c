import ScriptEngine.Proofs.Abreast.Calls
import ScriptEngine.Proofs.Abreast.Literals
import ScriptEngine.Proofs.Ownership.Contents

/-!
# Runs that keep no literals

An evaluator that makes a new object whenever a literal is evaluated goes side by side
with the one that keeps an object for each literal.  The one object that is kept then stands
for many, so the literals must be equal to themselves.
-/

namespace ScriptEngine

/-! ## Without a cache -/

namespace Evaluation

/-- An expression whose literals are made anew. -/
def uncachedExpression (setup : Setup) (operands : Operands)
    (invoke : FunctionId → List Address → Span → Evaluation Address) (id : ExpressionId)
    (node : Expression) (span : Span) : Evaluation Address :=
  match node with
  | .literal value => newScalar (value.scalar setup.program.names)
  | node => expression setup operands invoke id node span

theorem uncachedExpression_eq {setup : Setup} {operands : Operands}
    {invoke : FunctionId → List Address → Span → Evaluation Address} {id : ExpressionId}
    {node : Expression} {span : Span} (different : ∀ value, node ≠ .literal value) :
    uncachedExpression setup operands invoke id node span =
      expression setup operands invoke id node span := by
  cases node with
  | literal value => exact absurd rfl (different value)
  | _ => rfl

end Evaluation

namespace Nested

open Evaluation

/-- The evaluator of nodes that keeps no literals, given that of the nodes inside them. -/
def uncachedLayer (setup : Setup) (inner : Nested) (iterations : Nat) : Nested where
  toOperands :=
    { (layer setup (fun () => inner) iterations).toOperands with
      evaluate := fun id =>
        withExpression setup id fun node span =>
          uncachedExpression setup inner.toOperands (callUser setup (runCall setup inner)) id node
            span }
  execute := (layer setup (fun () => inner) iterations).execute
  iterations := iterations

/-- The evaluator with fuel that keeps no literals. -/
def uncached (setup : Setup) : Nat → Nested
  | 0 => exhausted
  | fuel + 1 => uncachedLayer setup (uncached setup fuel) fuel

end Nested

open Evaluation

/-- No literal is a NaN. -/
def Program.NanFree (program : Program) : Prop :=
  ∀ {id value span}, program.expression? id = some ⟨.literal value, span⟩ →
    (value.scalar program.names).isNan = false

variable {program : Program} {depth : Nat} {hands : Hands} {state other : State} {links : Links}

/-! ## Literals -/

namespace Linked

theorem faithful (linked : Linked (.first program) depth hands state other) :
    state.Faithful program := by
  obtain ⟨links, joined⟩ := linked.joined
  exact joined.keeps

/-- The first run keeps what both make. -/
theorem keepFirst {id : ExpressionId} {literal : Literal} {span : Span}
    (found : program.expression? id = some ⟨.literal literal, span⟩)
    (linked : Linked (.first program) depth hands state other) (missing : state.literal? id = none) :
    let value := literal.scalar program.names
    Linked (.first program) depth
      (hands.own ((state.keepLiteral id value).1, (other.heap.newScalar value).1))
      (state.keepLiteral id value).2 { other with heap := (other.heap.newScalar value).2 } := by
  intro value
  have made := linked.create (Heap.Fashioned.newScalar state.heap value).makes
    (Heap.Fashioned.newScalar other.heap value).makes fun joined => joined.agree.newScalar value
  obtain ⟨links, joined⟩ := made.joined
  have left : Holding Ledger.Orderly depth
      (hands.own ((state.keepLiteral id value).1, (other.heap.newScalar value).1)).left
      (state.keepLiteral id value).2 := by
    rw [Hands.left_own]
    exact (stable depth).keepLiteral linked.left missing value
  have remains := Heap.Remains.retain (state.heap.newScalar value).2 (state.heap.newScalar value).1
  have same : ∀ {address payload}, (state.heap.newScalar value).2.payload? address = some payload →
      (state.keepLiteral id value).2.heap.payload? address = some payload :=
    fun found => (Heap.payload?_retain _ _ _).trans found
  have faithful : State.Faithful program (state.keepLiteral id value).2 := by
    intro another address kept
    rw [State.literal?_keepLiteral] at kept
    split at kept
    · rename_i equal
      cases kept
      have known : another = id := congrArg ExpressionId.mk equal
      have payload := same (state.heap.payload?_newScalar value)
      refine ⟨literal, span, known ▸ found, payload, ?_⟩
      exact (remains.type payload).trans (state.heap.type_newScalar value)
    · obtain ⟨literal, span, known, payload, type⟩ := made.faithful another address kept
      exact ⟨literal, span, known, same payload, (remains.type (same payload)).trans type⟩
  have along : State.Along links (state.keepLiteral id value).2
      { other with heap := (other.heap.newScalar value).2 } :=
    ⟨joined.along.scopes, joined.along.calls, joined.along.loops, joined.along.output⟩
  refine @advance (.first program) _ _ _ _ links _ left made.right along joined.has faithful ?_
    fun known => known
  exact joined.agree.survive remains.survives (.refl _) left.sound.balanced.closed
    made.right.sound.balanced.closed

/-- What the first run has kept stands for what the second makes. -/
theorem reuse {id : ExpressionId} {literal : Literal} {span : Span} {address : Address}
    (found : program.expression? id = some ⟨.literal literal, span⟩)
    (proper : (literal.scalar program.names).isNan = false)
    (linked : Linked (.first program) depth hands state other)
    (kept : state.literal? id = some address) :
    let value := literal.scalar program.names
    Linked (.first program) depth (hands.own (address, (other.heap.newScalar value).1))
      { state with heap := state.heap.retain address }
      { other with heap := (other.heap.newScalar value).2 } := by
  intro value
  obtain ⟨links, joined⟩ := linked.joined
  have left : Holding Ledger.Orderly depth
      (hands.own (address, (other.heap.newScalar value).1)).left
      { state with heap := state.heap.retain address } := by
    rw [Hands.left_own]
    exact (stable depth).onHeap linked.left
      (.duplicate (Or.inr (State.mem_literals_of_literal? kept _)))
  have right : Holding Ledger.Orderly depth
      (hands.own (address, (other.heap.newScalar value).1)).right
      { other with heap := (other.heap.newScalar value).2 } := by
    rw [Hands.right_own]
    exact (stable depth).create (Heap.Fashioned.newScalar other.heap value).makes linked.right
  have survives : Heap.Survives state.heap (state.heap.retain address) :=
    (Heap.Remains.retain _ _).survives
  obtain ⟨_, _, known, payload, type⟩ := linked.faithful id address kept
  cases found.symm.trans known
  have there := (Heap.payload?_retain state.heap address address).trans payload
  have typed := (survives.steady payload (by simp [there])).2.trans type
  exact adopt joined left right (joined.along.onHeap _ _) survives
    (Heap.Crafted.newScalar other.heap value).survives there (other.heap.payload?_newScalar value)
    (typed.trans (other.heap.type_newScalar value).symm) le_rfl
    (Or.inr ⟨trivial, Scalar.equals_self proper⟩) (linked.faithful.keep left rfl survives.steady)

end Linked

namespace Evaluation

theorem literal_uncached_abreast {id : ExpressionId} {value : Literal} {span : Span}
    (found : program.expression? id = some ⟨.literal value, span⟩)
    (proper : (value.scalar program.names).isNan = false) {failed : State → State → Prop} :
    Abreast (Linked (.first program) depth hands) (literal program.names id value)
      (newScalar (value.scalar program.names))
      (fun address other => Linked (.first program) depth (hands.own (address, other))) failed := by
  intro state state' linked
  unfold literal
  cases kept : state.literal? id with
  | none => exact .value (linked.keepFirst found kept)
  | some address => exact .value (linked.reuse found proper kept)

/-- An observer of the first run that interrupts nothing. -/
theorem Abreast.observed {α : Type} {allowed : State → Prop} {before failed : State → State → Prop}
    {after : α → α → State → State → Prop} {first second : Evaluation α}
    (abreast : Abreast before first second after failed)
    (starts : ∀ state state', before state state' → allowed state)
    (ends : ∀ result other state state', after result other state state' → allowed state)
    (fails : ∀ state state', failed state state' → allowed state) :
    Abreast before (Evaluation.observed allowed first) second after failed := by
  intro state state' started
  have ended := abreast state state' started
  rw [observed_run, if_pos (starts state state' started)]
  generalize first state = one, second state' = another at ended ⊢
  cases ended with
  | value held =>
      simp only [if_pos (ends _ _ _ _ held)]
      exact .value held
  | failure failure held =>
      simp only [if_pos (fails _ _ held)]
      exact .failure failure held
  | stopped uninterrupted => exact .stopped uninterrupted

end Evaluation

namespace Nested

variable {setup : Setup} {inner inner' : Nested}

theorem uncachedLayer_abreast (prints : setup.OnlyPrints) (proper : setup.program.NanFree)
    (both : inner.Abreast (.first setup.program) inner') (iterations : Nat) :
    (layer setup (fun () => inner) iterations).Abreast (.first setup.program)
      (uncachedLayer setup inner' iterations) := by
  have operands := both.operands
  constructor
  · intro depth
    constructor
    · intro id _ hands
      apply withExpression_abreast
      intro node span found
      by_cases literal : ∃ value, node = .literal value
      · obtain ⟨value, rfl⟩ := literal
        exact literal_uncached_abreast found (proper found)
      · have different : ∀ value, node ≠ .literal value :=
          fun value same => literal ⟨value, same⟩
        simp only [uncachedExpression_eq different]
        apply expression_abreast (operands depth) fun _ _ => trivial
        · exact fun value same => absurd same (different value)
        · rintro callee arguments rfl
          refine call_abreast both span ?_
          rintro name builtin rfl
          exact fun found' => Builtin.impartial_of_prints (prints found found')
        · exact fun target value _ =>
            assign_abreast (operands depth) (both.targets depth) trivial trivial
    · intro id _ hands
      exact withExpression_abreast fun _ =>
        sharedExpression_abreast (operands depth) trivial fun _ _ => trivial
  · intro depth id _ hands
    exact withExpression_abreast fun _ =>
      targetExpression_abreast (operands depth) (both.targets depth) fun _ _ => trivial
  · intro id depth hands
    exact withStatement_agreeing both id
  · rfl

/-- Runs that keep literals go side by side with runs that make them anew, and at no moment
is anything else kept for a literal than what it stands for. -/
theorem uncached_abreast (prints : setup.OnlyPrints) (proper : setup.program.NanFree)
    {allowed : State → Prop} (allows : ∀ state, state.Faithful setup.program → allowed state)
    (fuel : Nat) :
    (watched setup allowed fuel).Abreast (.first setup.program) (uncached setup fuel) := by
  induction fuel with
  | zero => exact exhausted_abreast _
  | succ fuel induction =>
      have both := uncachedLayer_abreast prints proper induction fuel
      have allowing : ∀ {depth hands} (state other : State),
          Linked (.first setup.program) depth hands state other → allowed state :=
        fun state other linked => allows state linked.faithful
      constructor
      · intro depth
        constructor
        · intro id known hands
          exact ((both.operands depth).evaluate known hands).observed allowing
            (fun _ _ => allowing) allowing
        · intro id known hands
          exact ((both.operands depth).share known hands).observed allowing
            (fun _ _ => allowing) allowing
      · intro depth id known hands
        refine ((both.targets depth) known hands).observed allowing ?_ allowing
        rintro _ _ state other ⟨_, _, _, linked⟩
        exact allowing state other linked
      · intro id depth hands
        refine (both.execute id depth hands).observed allowing ?_ allowing
        rintro _ _ state other ⟨_, linked⟩
        exact allowing state other linked
      · rfl

theorem withFuel_abreast (prints : setup.OnlyPrints) (proper : setup.program.NanFree) (fuel : Nat) :
    (withFuel setup fuel).Abreast (.first setup.program) (uncached setup fuel) := by
  rw [← watched_true]
  exact uncached_abreast prints proper (fun _ _ => trivial) fuel

end Nested

end ScriptEngine
