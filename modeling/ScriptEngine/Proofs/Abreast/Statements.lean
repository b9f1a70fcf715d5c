import ScriptEngine.Proofs.Abreast.Places

/-!
# Statements side by side

Loops take the same items and conditions the same way, and signals are raised and seen
alike.  So lists of statements go side by side if the single ones do.
-/

namespace ScriptEngine

open Evaluation

variable {caching : Caching} {depth : Nat} {before hands : Hands} {state other : State}
variable {links : Links} {loose : Prop}

/-! ## Frames -/

theorem Scopes.Along.declare {scopes others : Scopes} (along : scopes.Along links others)
    (heap heap' : Heap) (name : Name) {value value' : Address} (linked : links value value') :
    (scopes.declare heap name value).1.Along links (others.declare heap' name value').1 := by
  have size : scopes.nested.size = others.nested.size := Nat.succ.inj along.depth_eq
  simp only [Scopes.declare, size]
  exact along.modifyFrame _ fun both => both.put name linked

namespace State.Along

theorem loopFinished_eq (along : state.Along links other) :
    state.loopFinished = other.loopFinished := by
  unfold State.loopFinished
  rw [along.loops, along.calls.loopBase_eq, along.calls.hasReturned_eq]

theorem hasSignal_eq (along : state.Along links other) : state.hasSignal = other.hasSignal := by
  unfold State.hasSignal
  rw [along.loopFinished_eq, along.scopes.innermost.skipsRest]

end State.Along

namespace Linked

theorem lasting : Ledger.Lasting ⟨True, False⟩ Ledger.Orderly := Ledger.Orderly.step

/-- Names take over handles, and the objects that they named before are let go. -/
theorem declare (name : Name) {value value' : Address}
    (linked : Linked caching depth (hands.share (value, value')) state other) :
    Linked caching depth hands
      (state.onStorage fun scopes heap => ((), scopes.declare heap name value)).2
      (other.onStorage fun scopes heap => ((), scopes.declare heap name value')).2 := by
  have declared : ∀ {state : State} {hand : Hand} {value : Address},
      Holding Ledger.Orderly depth (hand.share value) state →
        Holding Ledger.Orderly depth hand
          (state.onStorage fun scopes heap => ((), scopes.declare heap name value)).2 :=
    fun held => @declare_triple _ _ (stable depth) true (fun _ => trivial) name _ _
      (fun _ => True) _ held
  have survives : ∀ (heap : Heap) (value : Address) (previous : List Address),
      Heap.Survives heap ((heap.enterSlot value).dropSlots previous) := fun heap value previous =>
    ((Heap.Remains.enterSlot heap value).trans
      ((Heap.Remains.leaveSlots _ previous).trans (Heap.Remains.releaseAll _ previous))).survives
  have left := linked.left
  have right := linked.right
  rw [Hands.left_share] at left
  rw [Hands.right_share] at right
  apply linked.survive (declared left) (declared right) rfl rfl (survives _ _ _) (survives _ _ _)
  intro links joined
  have along := joined.along
  refine ⟨⟨?_, along.calls, along.loops, along.output⟩, ?_⟩
  · have given := joined.has (Hands.has_share_iff.mpr (Or.inl rfl))
    exact along.scopes.declare state.heap other.heap name given
  · exact fun held => joined.has (Hands.has_share_iff.mpr (Or.inr held))

/-- Frames of loops are no business of the ledger. -/
theorem reloop {loops loops' : Loops} (linked : Linked caching depth hands state other)
    (same : state.loops = other.loops → loops = loops') :
    Linked caching depth hands { state with loops := loops } { other with loops := loops' } := by
  have left : Holding Ledger.Orderly depth hands.left { state with loops := loops } := linked.left
  have right : Holding Ledger.Orderly depth hands.right { other with loops := loops' } :=
    linked.right
  exact linked.survive left right rfl rfl (.refl _) (.refl _) fun joined =>
    have along := joined.along
    ⟨⟨along.scopes, along.calls, same along.loops, along.output⟩, joined.has⟩

theorem copy {source source' : Address} (linked : Linked caching depth hands state other)
    (known : ∀ {links}, State.Joined caching hands state other links → links source source') :
    Linked caching depth
      (hands.own ((state.heap.copy source).1, (other.heap.copy source').1))
      { state with heap := (state.heap.copy source).2 }
      { other with heap := (other.heap.copy source').2 } :=
  linked.create (Heap.Fashioned.copy state.heap source).makes
    (Heap.Fashioned.copy other.heap source').makes fun joined =>
      joined.agree.copy linked.left.sound.grounded linked.right.sound.grounded (known joined)

/-- The bindings of the innermost frames give their handles back. -/
theorem pop (linked : Linked caching depth hands state other) :
    Linked caching depth hands (state.onStorage fun scopes heap => ((), scopes.pop heap)).2
      (other.onStorage fun scopes heap => ((), scopes.pop heap)).2 := by
  obtain ⟨links, joined⟩ := linked.joined
  simp only [State.onStorage]
  rcases cases_of_rel joined.along.scopes.back? with ⟨none, none'⟩ | ⟨frame, frame', last, last', both⟩
  · rw [Scopes.pop_of_root none, Scopes.pop_of_root none']
    exact linked
  · rw [Scopes.pop_of_back? last, Scopes.pop_of_back? last']
    have count := both.values.length_eq
    have firsts := List.map_fst_zip count.le
    have seconds := List.map_snd_zip count.ge
    have left : Holding Ledger.Orderly depth (hands.left.shareAll frame.values)
        { state with
          heap := state.heap.leaveSlots frame.values
          scopes := state.scopes.dropFrame } :=
      linked.left.step lasting (.pop last) rfl
    have right : Holding Ledger.Orderly depth (hands.right.shareAll frame'.values)
        { other with
          heap := other.heap.leaveSlots frame'.values
          scopes := other.scopes.dropFrame } :=
      linked.right.step lasting (.pop last') rfl
    rw [← firsts, ← Hands.left_shareAll, firsts] at left
    rw [← seconds, ← Hands.right_shareAll, seconds] at right
    have dropped := linked.survive left right rfl rfl (Heap.Remains.leaveSlots _ _).survives
      (Heap.Remains.leaveSlots _ _).survives fun {links} joined => by
        have along := joined.along
        refine ⟨⟨along.scopes.dropFrame, along.calls, along.loops, along.output⟩, ?_⟩
        have both := along.scopes.back?
        rw [last, last', Option.rel_some_some] at both
        intro first second held
        rcases Hands.has_shareAll_iff.mp held with inside | held
        · exact (List.forall₂_iff_zip.mp both.values).2 inside
        · exact joined.has held
    have given := dropped.giveBack
    rw [firsts, seconds] at given
    exact given

end Linked

namespace Evaluation

variable {α : Type} {first second : Evaluation α}

/-- Both runs give the same, and have the same handles at hand then. -/
def Agreeing (caching : Caching) (depth : Nat) (before hands : Hands) (first second : Evaluation α) :
    Prop :=
  Abreast (Linked caching depth before) first second
    (fun result result' state state' => result = result' ∧ Linked caching depth hands state state')
    (Linked caching depth hands)

namespace Agreeing

theorem pure (result : α) : Agreeing caching depth hands hands (Pure.pure result) (Pure.pure result) :=
  Abreast.pure fun _ _ linked => ⟨rfl, linked⟩

theorem fail (cause : Cause) : Agreeing (α := α) caching depth hands hands (.fail cause) (.fail cause) :=
  Abreast.fail cause fun _ _ linked => linked

theorem stop {reason : Stop} (uninterrupted : reason ≠ .interrupted) :
    Agreeing (α := α) caching depth before hands (.stop reason) (.stop reason) :=
  Abreast.stop uninterrupted

theorem read {view : State → α}
    (same : ∀ state other links, State.Joined caching hands state other links →
      view state = view other) :
    Agreeing caching depth hands hands (Evaluation.read view) (Evaluation.read view) :=
  Abreast.glance fun state state' linked => by
    obtain ⟨links, joined⟩ := linked.joined
    exact same state state' links joined

end Agreeing

theorem inScope_agreeing (agreeing : Agreeing caching depth before hands first second) :
    Agreeing caching depth before hands (inScope first) (inScope second) := by
  intro state state' linked
  have pushed : Linked caching depth before { state with scopes := state.scopes.push }
      { state' with scopes := state'.scopes.push } := by
    have left : Holding Ledger.Orderly depth before.left
        { state with scopes := state.scopes.push } := linked.left.step Linked.lasting .push rfl
    have right : Holding Ledger.Orderly depth before.right
        { state' with scopes := state'.scopes.push } := linked.right.step Linked.lasting .push rfl
    exact linked.survive left right rfl rfl (.refl _) (.refl _) fun joined =>
      have along := joined.along
      ⟨⟨along.scopes.push, along.calls, along.loops, along.output⟩, joined.has⟩
  apply Abreast.ensuring _ _ _ pushed
  apply agreeing.weaken
  · intro state state' started
    exact started
  · intro result result' state state' ended
    exact ⟨ended.1, ended.2.pop⟩
  · intro state state' ended
    exact ended.pop

theorem inLoop_agreeing (agreeing : Agreeing caching depth before hands first second) :
    Agreeing caching depth before hands (inLoop first) (inLoop second) := by
  intro state state' linked
  obtain ⟨links, joined⟩ := linked.joined
  have pushed : Linked caching depth before
      { state with loops := state.loops.push { scopeDepth := state.scopes.depth } }
      { state' with loops := state'.loops.push { scopeDepth := state'.scopes.depth } } :=
    linked.reloop fun same => by rw [same, joined.along.scopes.depth_eq]
  apply Abreast.ensuring _ _ _ pushed
  apply agreeing.weaken
  · intro state state' started
    exact started
  · intro result result' state state' ended
    exact ⟨ended.1, ended.2.reloop (congrArg Loops.pop)⟩
  · intro state state' ended
    exact ended.reloop (congrArg Loops.pop)

end Evaluation

/-- The evaluators of nodes, side by side. -/
structure Nested.Abreast (caching : Caching) (first second : Nested) : Prop where
  operands : ∀ depth, first.toOperands.Abreast caching depth (fun _ => True) second.toOperands
  targets : ∀ depth,
    Evaluation.Targets caching depth (fun _ => True) first.toOperands second.toOperands
  execute : ∀ id depth hands, Agreeing caching depth hands hands (first.execute id)
    (second.execute id)
  iterations : first.iterations = second.iterations

namespace Evaluation

variable {setup : Setup} {operands operands' : Operands} {nested nested' : Nested}

/-! ## Values that statements need -/

theorem condition_agreeing (both : operands.Abreast caching depth (fun _ => True) operands')
    (id : ExpressionId) :
    Agreeing caching depth hands hands (condition setup operands id)
      (condition setup operands' id) := by
  apply Abreast.bind (both.evaluate trivial hands)
  intro address address'
  apply Abreast.holding_same [(address, address')]
  rw [Hands.ownAll_cons, Hands.ownAll_nil]
  apply Abreast.bind_same (Abreast.glance _)
  · intro result
    apply Abreast.located
    exact Abreast.ofExcept_glance fun _ _ linked => linked
  · intro state state' linked
    obtain ⟨links, joined⟩ := linked.joined
    have known := joined.has (Hands.has_own_iff.mpr (Or.inl rfl))
    simp only [joined.agree.scalar?_eq known, joined.agree.kind_eq known]

theorem initialValue_abreast (both : operands.Abreast caching depth (fun _ => True) operands')
    (id : StatementId) (value : Option ExpressionId) :
    Abreast (Linked caching depth hands) (initialValue setup operands id value)
      (initialValue setup operands' id value)
      (fun address other => Linked caching depth (hands.own (address, other)))
      (Linked caching depth hands) := by
  cases value with
  | some value => exact both.evaluate trivial hands
  | none =>
      simp only [initialValue]
      cases setup.program.types.declaration? id with
      | some type =>
          exact Abreast.create (fun heap => (Heap.Fashioned.newDefault heap type).makes)
            (fun heap => (Heap.Fashioned.newDefault heap type).makes)
            fun _ joined => joined.agree.newDefault type
      | none => exact Abreast.fail _ fun _ _ linked => linked

theorem declare_abreast (name : Name) (value value' : Address) {failed : State → State → Prop} :
    Abreast (Linked caching depth (hands.share (value, value'))) (declare name value)
      (declare name value')
      (fun result result' state state' =>
        result = result' ∧ Linked caching depth hands state state') failed :=
  fun _ _ linked => .value ⟨rfl, linked.declare name⟩

theorem declareVariable_agreeing (both : operands.Abreast caching depth (fun _ => True) operands')
    (id : StatementId) (name : Name) (value : Option ExpressionId) :
    Agreeing caching depth hands hands (declareVariable setup operands id name value)
      (declareVariable setup operands' id name value) := by
  apply Abreast.bind (initialValue_abreast both id value)
  intro address address' state state' linked
  exact declare_abreast name address address' state state' linked.lower

theorem resultValue_abreast (both : operands.Abreast caching depth (fun _ => True) operands')
    (value : Option ExpressionId) :
    Abreast (Linked caching depth hands) (resultValue operands value)
      (resultValue operands' value)
      (fun address other => Linked caching depth (hands.own (address, other)))
      (Linked caching depth hands) := by
  apply Abreast.bind_same (Abreast.glance _)
  · intro outside
    split
    · exact Abreast.fail _ fun _ _ linked => linked
    · cases value with
      | some id => exact both.evaluate trivial hands
      | none => exact Abreast.newScalar .none
  · intro state state' linked
    obtain ⟨links, joined⟩ := linked.joined
    rcases cases_of_rel joined.along.calls.current? with ⟨none, none'⟩ | ⟨_, _, some, some', _⟩
    · rw [none, none']
    · rw [some, some']
      rfl

/-! ## Statement lists -/

theorem sequence_agreeing (both : nested.Abreast caching nested') (statements : List StatementId) :
    Agreeing caching depth hands hands (sequence nested statements)
      (sequence nested' statements) := by
  induction statements with
  | nil => exact Agreeing.pure ()
  | cons statement others induction =>
      apply Abreast.bind_same (both.execute statement depth hands)
      intro _
      apply Abreast.bind_same (Agreeing.read fun _ _ _ joined => joined.along.hasSignal_eq)
      intro stops
      split
      · exact Agreeing.pure ()
      · exact induction

theorem block_agreeing (both : nested.Abreast caching nested') (body : Block) :
    Agreeing caching depth hands hands (block nested body) (block nested' body) :=
  inScope_agreeing (sequence_agreeing both body.statements)

/-! ## Loops -/

/-- What an iteration goes on with once its variable is bound. -/
theorem rounds_agreeing (both : nested.Abreast caching nested') (body : Block) :
    Agreeing caching depth hands hands
      (do
        sequence nested body.statements
        read (!·.loopFinished))
      (do
        sequence nested' body.statements
        read (!·.loopFinished)) := by
  apply Abreast.bind_same (sequence_agreeing both body.statements)
  intro _
  exact Agreeing.read fun _ _ _ joined => by rw [joined.along.loopFinished_eq]

theorem iteration_agreeing (both : nested.Abreast caching nested') (body : Block) :
    Agreeing caching depth hands hands (iteration nested none body) (iteration nested' none body) :=
  inScope_agreeing (rounds_agreeing both body)

theorem iteration_agreeing_binding (both : nested.Abreast caching nested') (body : Block)
    (name : Name) (value value' : Address) :
    Agreeing caching depth (hands.own (value, value')) hands
      (iteration nested (some (name, value)) body) (iteration nested' (some (name, value')) body) := by
  apply inScope_agreeing
  have bound : Agreeing caching depth (hands.own (value, value')) hands (declare name value)
      (declare name value') :=
    fun state state' linked => declare_abreast name value value' state state' linked.lower
  apply Abreast.bind_same bound
  intro _
  exact rounds_agreeing both body

theorem whileFrom_agreeing (both : nested.Abreast caching nested') (test : ExpressionId)
    (body : Block) (count : Nat) :
    Agreeing caching depth hands hands (whileFrom setup nested test body count)
      (whileFrom setup nested' test body count) := by
  induction count with
  | zero => exact .stop (by simp)
  | succ count induction =>
      apply Abreast.bind_same (condition_agreeing (both.operands depth) test)
      intro enters
      split
      · apply Abreast.bind_same (iteration_agreeing both body)
        intro goesOn
        split
        · exact induction
        · exact Agreeing.pure ()
      · exact Agreeing.pure ()

theorem doWhileFrom_agreeing (both : nested.Abreast caching nested') (body : Block)
    (test : ExpressionId) (count : Nat) :
    Agreeing caching depth hands hands (doWhileFrom setup nested body test count)
      (doWhileFrom setup nested' body test count) := by
  induction count with
  | zero => exact .stop (by simp)
  | succ count induction =>
      apply Abreast.bind_same (iteration_agreeing both body)
      intro goesOn
      split
      · apply Abreast.bind_same (condition_agreeing (both.operands depth) test)
        intro again
        split
        · exact induction
        · exact Agreeing.pure ()
      · exact Agreeing.pure ()

theorem foreverFrom_agreeing (both : nested.Abreast caching nested') (body : Block) (count : Nat) :
    Agreeing caching depth hands hands (foreverFrom nested body count)
      (foreverFrom nested' body count) := by
  induction count with
  | zero => exact .stop (by simp)
  | succ count induction =>
      apply Abreast.bind_same (iteration_agreeing both body)
      intro goesOn
      split
      · exact induction
      · exact Agreeing.pure ()

end Evaluation

/-! ## Items -/

/-- What a loop of each of two runs has still to bind. -/
inductive Supply where
  | integers (next stop : Int64)
  | elements (sources : Address × Address) (position : Nat)
  | entries (sources : Address × Address) (position : Nat) (pairType : StaticType)

namespace Supply

def left : Supply → Items
  | .integers next stop => .integers next stop
  | .elements sources position => .elements sources.1 position
  | .entries sources position pairType => .entries sources.1 position pairType

def right : Supply → Items
  | .integers next stop => .integers next stop
  | .elements sources position => .elements sources.2 position
  | .entries sources position pairType => .entries sources.2 position pairType

/-- The containers that the items are taken from. -/
def sources : Supply → List (Address × Address)
  | .integers _ _ => []
  | .elements sources _ => [sources]
  | .entries sources _ _ => [sources]

/-- Linked objects supply the same items, or neither does any. -/
theorem of_linked {left right : Heap} (agree : left.Matches right links loose) {source source' : Address}
    (linked : links source source') :
    Items.of? left source = none ∧ Items.of? right source' = none ∨
      ∃ supply : Supply, Items.of? left source = some supply.left ∧
        Items.of? right source' = some supply.right ∧
        ∀ pair ∈ supply.sources, pair = (source, source') := by
  obtain ⟨payload, content, found, found', related⟩ := agree.payload linked
  unfold Items.of?
  rw [found, found', agree.type linked]
  cases related.beside with
  | scalar value =>
      cases value with
      | range start stop => exact Or.inr ⟨.integers start stop, rfl, rfl, by simp [sources]⟩
      | _ => exact Or.inl ⟨rfl, rfl⟩
  | vector parts =>
      exact Or.inr ⟨.elements (source, source') 0, rfl, rfl, by simp [sources]⟩
  | dict parts =>
      exact Or.inr ⟨.entries (source, source') 0 _, rfl, rfl, by simp [sources]⟩

end Supply

/-- A copy leaves alone what is there. -/
theorem Heap.entry?_copy {heap : Heap} {dict : Address} (present : heap.payload? dict ≠ none)
    (address : Address) (kept : (heap.copy address).2.payload? dict ≠ none) (position : Nat) :
    Heap.entry? (heap.copy address).2 dict position = heap.entry? dict position := by
  obtain ⟨payload, found⟩ := Option.ne_none_iff_exists'.mp present
  have same := (Heap.Crafted.copy heap address).survives.payload?_eq (lt_size_of_payload? found) kept
  rw [Heap.entry?, Heap.entry?, Heap.entries, Heap.entries, same]

namespace Linked

/-- The pair that a loop over linked dicts binds for linked entries. -/
theorem pairUp {sources : Address × Address} (has : hands.Has sources.1 sources.2) {position : Nat}
    {entry entry' : Address × Address} (linked : Linked caching depth hands state other)
    (found : state.heap.entry? sources.1 position = some entry)
    (found' : other.heap.entry? sources.2 position = some entry') (type : StaticType) :
    Linked caching depth
      (hands.own ((state.heap.pairUp entry type).1, (other.heap.pairUp entry' type).1))
      { state with heap := (state.heap.pairUp entry type).2 }
      { other with heap := (other.heap.pairUp entry' type).2 } := by
  let keyed := state.heap.copy entry.1
  let keyed' := other.heap.copy entry'.1
  let valued := keyed.2.copy entry.2
  let valued' := keyed'.2.copy entry'.2
  have parts : ∀ {hands : Hands} {state other : State} {links : Links},
      State.Joined caching hands state other links → hands.Has sources.1 sources.2 →
      state.heap.entry? sources.1 position = some entry →
      other.heap.entry? sources.2 position = some entry' →
        links entry.1 entry'.1 ∧ links entry.2 entry'.2 := by
    intro hands state other links joined has found found'
    have both := joined.agree.entry?_linked (joined.has has) position
    rwa [found, found', Option.rel_some_some] at both
  have keys : Linked caching depth (hands.own (keyed.1, keyed'.1)) { state with heap := keyed.2 }
      { other with heap := keyed'.2 } :=
    linked.copy fun joined => (parts joined has found found').1
  have has' : (hands.own (keyed.1, keyed'.1)).Has sources.1 sources.2 :=
    Hands.has_own_iff.mpr (Or.inr has)
  have still : Heap.entry? keyed.2 sources.1 position = some entry :=
    (Heap.entry?_copy (linked.left.present has.mem_left) _ (keys.left.present has'.mem_left)
      position).trans found
  have still' : Heap.entry? keyed'.2 sources.2 position = some entry' :=
    (Heap.entry?_copy (linked.right.present has.mem_right) _ (keys.right.present has'.mem_right)
      position).trans found'
  have values : Linked caching depth ((hands.own (keyed.1, keyed'.1)).own (valued.1, valued'.1))
      { state with heap := valued.2 } { other with heap := valued'.2 } :=
    keys.copy fun joined => (parts joined has' still still').2
  rw [← Hands.ownAll_pair] at values
  apply values.craft
  · exact (Heap.Fashioned.newVector valued.2 type [keyed.1, valued.1]).makes
  · exact (Heap.Fashioned.newVector valued'.2 type [keyed'.1, valued'.1]).makes
  · intro links joined
    apply joined.agree.newVector
    refine .cons (joined.has (Hands.has_ownAll_iff.mpr (Or.inl ?_)))
      (.cons (joined.has (Hands.has_ownAll_iff.mpr (Or.inl ?_))) .nil)
    · exact List.mem_cons_self
    · exact List.mem_cons_of_mem _ List.mem_cons_self

/-- Both runs have taken their next items, which are newly made, or there is none. -/
def Supplies (caching : Caching) (depth : Nat) (hands : Hands) (supply : Supply)
    (state other : State) : Prop :=
  ∃ item? : Option ((Address × Address) × Supply),
    (supply.left.next? state.heap).1 = item?.map (fun item => (item.1.1, item.2.left)) ∧
    (supply.right.next? other.heap).1 = item?.map (fun item => (item.1.2, item.2.right)) ∧
    (∀ item ∈ item?, item.2.sources = supply.sources) ∧
    Linked caching depth (hands.ownAll (item?.map Prod.fst).toList)
      { state with heap := (supply.left.next? state.heap).2 }
      { other with heap := (supply.right.next? other.heap).2 }

theorem supplies_none {supply : Supply} (linked : Linked caching depth hands state other)
    (next : supply.left.next? state.heap = (none, state.heap))
    (next' : supply.right.next? other.heap = (none, other.heap)) :
    Supplies caching depth hands supply state other := by
  refine ⟨none, congrArg Prod.fst next, congrArg Prod.fst next', by simp, ?_⟩
  rwa [next, next', Option.map_none, Option.toList_none, Hands.ownAll_nil]

theorem supplies_some {supply later : Supply} {value value' : Address × Heap}
    (next : supply.left.next? state.heap = (some (value.1, later.left), value.2))
    (next' : supply.right.next? other.heap = (some (value'.1, later.right), value'.2))
    (same : later.sources = supply.sources)
    (made : Linked caching depth (hands.own (value.1, value'.1))
      { state with heap := value.2 } { other with heap := value'.2 }) :
    Supplies caching depth hands supply state other := by
  refine ⟨some ((value.1, value'.1), later), congrArg Prod.fst next, congrArg Prod.fst next',
    by simp [same], ?_⟩
  rwa [next, next', Option.map_some, Option.toList_some, Hands.ownAll_cons, Hands.ownAll_nil]

theorem next? {supply : Supply} (within : ∀ pair ∈ supply.sources, hands.Has pair.1 pair.2)
    (linked : Linked caching depth hands state other) :
    Supplies caching depth hands supply state other := by
  obtain ⟨links, joined⟩ := linked.joined
  cases supply with
  | integers start stop =>
      by_cases more : start.toInt < stop.toInt
      · have made := linked.create (Heap.Fashioned.newScalar state.heap (.int start)).makes
          (Heap.Fashioned.newScalar other.heap (.int start)).makes
          fun joined => joined.agree.newScalar (.int start)
        exact @supplies_some _ _ _ _ _ _ (.integers (start + 1) stop) _ _
          (Items.next?_integers_of_lt more state.heap)
          (Items.next?_integers_of_lt more other.heap) rfl made
      · exact supplies_none linked (Items.next?_integers_of_not_lt more state.heap)
          (Items.next?_integers_of_not_lt more other.heap)
  | elements sources position =>
      have has := within sources (List.mem_singleton_self _)
      rcases cases_of_rel (joined.agree.element?_linked (joined.has has) position) with
        ⟨missing, missing'⟩ | ⟨element, element', found, found', _⟩
      · exact supplies_none linked (Items.next?_elements_of_none missing)
          (Items.next?_elements_of_none missing')
      · have copied := @Linked.copy _ _ _ _ _ element element' linked fun joined => by
          have both := joined.agree.element?_linked (joined.has has) position
          rwa [found, found', Option.rel_some_some] at both
        exact @supplies_some _ _ _ _ _ _ (.elements sources (position + 1)) _ _
          (Items.next?_elements_of_some found) (Items.next?_elements_of_some found') rfl copied
  | entries sources position pairType =>
      have has := within sources (List.mem_singleton_self _)
      rcases cases_of_rel (joined.agree.entry?_linked (joined.has has) position) with
        ⟨missing, missing'⟩ | ⟨entry, entry', found, found', _⟩
      · exact supplies_none linked (Items.next?_entries_of_none missing pairType)
          (Items.next?_entries_of_none missing' pairType)
      · have paired := linked.pairUp has found found' pairType
        exact @supplies_some _ _ _ _ _ _ (.entries sources (position + 1) pairType) _ _
          (Items.next?_entries_of_some found pairType)
          (Items.next?_entries_of_some found' pairType) rfl paired

end Linked

namespace Evaluation

variable {setup : Setup} {nested nested' : Nested}

theorem forEachFrom_agreeing (both : nested.Abreast caching nested') (name : Name) (body : Block)
    (count : Nat) {supply : Supply} (within : ∀ pair ∈ supply.sources, hands.Has pair.1 pair.2) :
    Agreeing caching depth hands hands (forEachFrom nested name body count supply.left)
      (forEachFrom nested' name body count supply.right) := by
  induction count generalizing supply with
  | zero => exact .stop (by simp)
  | succ count induction =>
      have next : Abreast (Linked caching depth hands) (onHeap supply.left.next?)
          (onHeap supply.right.next?)
          (fun result result' state state' => ∃ item? : Option ((Address × Address) × Supply),
            result = item?.map (fun item => (item.1.1, item.2.left)) ∧
              result' = item?.map (fun item => (item.1.2, item.2.right)) ∧
                (∀ item ∈ item?, item.2.sources = supply.sources) ∧
                  Linked caching depth (hands.ownAll (item?.map Prod.fst).toList) state state')
          (Linked caching depth hands) :=
        fun _ _ linked => .value (linked.next? within)
      apply Abreast.bind_joint next
      intro item?
      rintro state state' ⟨same, linked⟩
      cases item? with
      | none =>
          rw [Option.map_none, Option.toList_none, Hands.ownAll_nil] at linked
          exact .value ⟨rfl, linked⟩
      | some item =>
          obtain ⟨⟨value, value'⟩, others⟩ := item
          have rest : ∀ pair ∈ others.sources, hands.Has pair.1 pair.2 := by
            rw [same _ rfl]
            exact within
          rw [Option.map_some, Option.toList_some, Hands.ownAll_cons, Hands.ownAll_nil] at linked
          have bound := @iteration_agreeing_binding caching depth hands nested nested' both body name
            value value'
          refine Abreast.bind_same bound ?_ _ _ linked
          intro goesOn
          split
          · exact induction rest
          · exact Agreeing.pure ()

theorem forEach_agreeing (both : nested.Abreast caching nested') (name : Name)
    (iterable : ExpressionId) (body : Block) :
    Agreeing caching depth hands hands (forEach setup nested name iterable body)
      (forEach setup nested' name iterable body) := by
  apply Abreast.bind ((both.operands depth).evaluate trivial hands)
  intro source source'
  have looped : ∀ {hands : Hands} (supply : Supply),
      (∀ pair ∈ supply.sources, hands.Has pair.1 pair.2) →
        Agreeing caching depth hands hands
          (inLoop (forEachFrom nested name body nested.iterations supply.left))
          (inLoop (forEachFrom nested' name body nested'.iterations supply.right)) := by
    intro hands supply within
    rw [both.iterations]
    exact inLoop_agreeing (forEachFrom_agreeing both name body _ within)
  have walked : ∀ supply : Supply, (∀ pair ∈ supply.sources, pair = (source, source')) →
      Agreeing caching depth (hands.own (source, source')) hands
        (holding [source] (inLoop (forEachFrom nested name body nested.iterations supply.left)))
        (holding [source'] (inLoop (forEachFrom nested' name body nested'.iterations
          supply.right))) := by
    intro supply within
    apply Abreast.holding_same [(source, source')]
    rw [Hands.ownAll_cons, Hands.ownAll_nil]
    apply looped
    intro pair member
    rw [within pair member]
    exact Hands.has_own_iff.mpr (Or.inl rfl)
  have supplied : Abreast (Linked caching depth (hands.own (source, source')))
      (read fun state => Items.of? state.heap source)
      (read fun state => Items.of? state.heap source')
      (fun result result' state state' => ∃ supply? : Option Supply,
        result = supply?.map Supply.left ∧ result' = supply?.map Supply.right ∧
          (∀ supply ∈ supply?, ∀ pair ∈ supply.sources, pair = (source, source')) ∧
            Linked caching depth (hands.own (source, source')) state state')
      (Linked caching depth hands) := by
    intro state state' linked
    obtain ⟨links, joined⟩ := linked.joined
    apply Outcome.Abreast.value
    rcases Supply.of_linked joined.agree (joined.has (Hands.has_own_iff.mpr (Or.inl rfl))) with
      ⟨none, none'⟩ | ⟨supply, some, some', within⟩
    · exact ⟨.none, none, none', by simp, linked⟩
    · exact ⟨.some supply, some, some', by simpa using within, linked⟩
  apply Abreast.bind_joint supplied
  intro supply?
  rintro state state' ⟨within, linked⟩
  cases supply? with
  | none =>
      have failed : Agreeing caching depth (hands.own (source, source')) hands
          (holding [source] do
            let kind ← read (·.heap.kind source)
            located (setup.program.spanOf iterable)
              (fail (α := Unit) (.typeMismatch "iterable" kind.name)))
          (holding [source'] do
            let kind ← read (·.heap.kind source')
            located (setup.program.spanOf iterable)
              (fail (α := Unit) (.typeMismatch "iterable" kind.name))) := by
        apply Abreast.holding_same [(source, source')]
        rw [Hands.ownAll_cons, Hands.ownAll_nil]
        apply Abreast.bind_same (Abreast.glance _)
        · intro kind
          exact (Agreeing.fail _).located _
        · intro state state' linked
          obtain ⟨links, joined⟩ := linked.joined
          exact joined.agree.kind_eq (joined.has (Hands.has_own_iff.mpr (Or.inl rfl)))
      exact failed state state' linked
  | some supply =>
      have inside := within supply rfl
      cases supply with
      | integers start stop =>
          rw [← hands.ownAll_nil, ← Hands.ownAll_cons] at linked
          have released := @looped hands (.integers start stop) (by simp [Supply.sources])
          refine Abreast.bind (Abreast.release [(source, source')]) ?_ _ _ linked
          intro _ _
          exact released
      | elements sources position => exact walked _ inside state state' linked
      | entries sources position pairType => exact walked _ inside state state' linked

/-! ## Signals -/

theorem breakLoop_agreeing : Agreeing caching depth hands hands breakLoop breakLoop := by
  intro state state' linked
  obtain ⟨links, joined⟩ := linked.joined
  have along := joined.along
  have same : state'.loops.break? state'.calls.loopBase =
      state.loops.break? state.calls.loopBase := by
    rw [along.loops, along.calls.loopBase_eq]
  unfold breakLoop
  rw [same]
  cases state.loops.break? state.calls.loopBase with
  | some loops => exact .value ⟨rfl, linked.reloop fun _ => rfl⟩
  | none => exact .failure _ linked

theorem continueLoop_agreeing : Agreeing caching depth hands hands continueLoop continueLoop := by
  intro state state' linked
  obtain ⟨links, joined⟩ := linked.joined
  have along := joined.along
  have same : state'.loops.innermost? state'.calls.loopBase =
      state.loops.innermost? state.calls.loopBase := by
    rw [along.loops, along.calls.loopBase_eq]
  unfold continueLoop
  rw [same]
  cases state.loops.innermost? state.calls.loopBase with
  | some frame =>
      have left : Holding Ledger.Orderly depth hands.left
          { state with scopes := state.scopes.skipFrom frame.scopeDepth } :=
        linked.left.step Linked.lasting (.skip frame.scopeDepth) rfl
      have right : Holding Ledger.Orderly depth hands.right
          { state' with scopes := state'.scopes.skipFrom frame.scopeDepth } :=
        linked.right.step Linked.lasting (.skip frame.scopeDepth) rfl
      apply Outcome.Abreast.value
      refine ⟨rfl, linked.survive left right rfl rfl (.refl _) (.refl _) fun joined => ?_⟩
      have along := joined.along
      exact ⟨⟨along.scopes.skipFrom _, along.calls, along.loops, along.output⟩, joined.has⟩
  | none => exact .failure _ linked

end Evaluation

end ScriptEngine
