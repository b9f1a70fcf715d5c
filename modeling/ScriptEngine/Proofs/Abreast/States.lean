import ScriptEngine.Proofs.Abreast.Frames
import ScriptEngine.Proofs.Abreast.Making
import ScriptEngine.Proofs.Ownership.Tidiness

/-!
# States of two runs

Two runs are linked if their heaps match along links between everything that they
refer to: the handles they have at hand, pair by pair, what their frames bind and the
results their calls keep.  Literals are kept by both runs alike, or by the first alone,
each with what its expression says; or the first run has kept some earlier than the second.
-/

namespace ScriptEngine

/-! ## Handles in pairs -/

/-- The handles that two runs have at hand.  Some that are shared may be put aside, by
either run alone: what is held with them need not be linked. -/
structure Hands where
  owned : Multiset (Address × Address)
  shared : Multiset (Address × Address)
  asideLeft : Multiset Address := 0
  asideRight : Multiset Address := 0

namespace Hands

def left (hands : Hands) : Hand :=
  ⟨hands.owned.map Prod.fst, hands.shared.map Prod.fst + hands.asideLeft⟩

def right (hands : Hands) : Hand :=
  ⟨hands.owned.map Prod.snd, hands.shared.map Prod.snd + hands.asideRight⟩

/-- The pairs that are at hand. -/
def Has (hands : Hands) : Links :=
  fun first second => (first, second) ∈ hands.owned ∨ (first, second) ∈ hands.shared

def own (pair : Address × Address) (hands : Hands) : Hands :=
  { hands with owned := pair ::ₘ hands.owned }

def ownAll (pairs : List (Address × Address)) (hands : Hands) : Hands :=
  { hands with owned := pairs + hands.owned }

def share (pair : Address × Address) (hands : Hands) : Hands :=
  { hands with shared := pair ::ₘ hands.shared }

def shareAll (pairs : List (Address × Address)) (hands : Hands) : Hands :=
  { hands with shared := pairs + hands.shared }

def putAside (pair : Address × Address) (hands : Hands) : Hands :=
  { hands with
    asideLeft := pair.1 ::ₘ hands.asideLeft
    asideRight := pair.2 ::ₘ hands.asideRight }

variable (hands : Hands) (pair : Address × Address) (pairs : List (Address × Address))
variable {first second : Address}

@[simp] theorem left_own : (hands.own pair).left = hands.left.own pair.1 := by
  simp [left, own, Hand.own]

@[simp] theorem right_own : (hands.own pair).right = hands.right.own pair.2 := by
  simp [right, own, Hand.own]

@[simp] theorem left_ownAll : (hands.ownAll pairs).left = hands.left.ownAll (pairs.map Prod.fst) := by
  simp [left, ownAll, Hand.ownAll]

@[simp] theorem right_ownAll :
    (hands.ownAll pairs).right = hands.right.ownAll (pairs.map Prod.snd) := by
  simp [right, ownAll, Hand.ownAll]

@[simp] theorem left_share : (hands.share pair).left = hands.left.share pair.1 := by
  simp [left, share, Hand.share]

@[simp] theorem right_share : (hands.share pair).right = hands.right.share pair.2 := by
  simp [right, share, Hand.share]

@[simp] theorem left_shareAll :
    (hands.shareAll pairs).left = hands.left.shareAll (pairs.map Prod.fst) := by
  simp [left, shareAll, Hand.shareAll, add_assoc]

@[simp] theorem right_shareAll :
    (hands.shareAll pairs).right = hands.right.shareAll (pairs.map Prod.snd) := by
  simp [right, shareAll, Hand.shareAll, add_assoc]

@[simp] theorem left_putAside : (hands.putAside pair).left = hands.left.share pair.1 := by
  simp [left, putAside, Hand.share]

@[simp] theorem right_putAside : (hands.putAside pair).right = hands.right.share pair.2 := by
  simp [right, putAside, Hand.share]

@[simp] theorem ownAll_nil : hands.ownAll [] = hands := by
  simp [ownAll]

@[simp] theorem ownAll_cons (others : List (Address × Address)) :
    hands.ownAll (pair :: others) = (hands.ownAll others).own pair := by
  simp [ownAll, own, ← Multiset.cons_coe]

@[simp] theorem shareAll_nil : hands.shareAll [] = hands := by
  simp [shareAll]

@[simp] theorem shareAll_cons (others : List (Address × Address)) :
    hands.shareAll (pair :: others) = (hands.shareAll others).share pair := by
  simp [shareAll, share, ← Multiset.cons_coe]

variable {hands pair pairs}

theorem has_own_iff : (hands.own pair).Has first second ↔
    (first, second) = pair ∨ hands.Has first second := by
  simp [Has, own, or_assoc]

theorem has_share_iff : (hands.share pair).Has first second ↔
    (first, second) = pair ∨ hands.Has first second := by
  simp only [Has, share, Multiset.mem_cons]
  tauto

theorem has_ownAll_iff : (hands.ownAll pairs).Has first second ↔
    (first, second) ∈ pairs ∨ hands.Has first second := by
  simp [Has, ownAll, or_assoc]

theorem has_shareAll_iff : (hands.shareAll pairs).Has first second ↔
    (first, second) ∈ pairs ∨ hands.Has first second := by
  simp only [Has, shareAll, Multiset.mem_add, Multiset.mem_coe]
  tauto

@[simp] theorem has_putAside_iff : (hands.putAside pair).Has first second ↔
    hands.Has first second :=
  Iff.rfl

theorem Has.mem_left (has : hands.Has first second) :
    first ∈ hands.left.owned ∨ first ∈ hands.left.shared := by
  simp only [left, Multiset.mem_map, Multiset.mem_add]
  exact has.imp (fun member => ⟨_, member, rfl⟩) fun member => Or.inl ⟨_, member, rfl⟩

theorem Has.mem_right (has : hands.Has first second) :
    second ∈ hands.right.owned ∨ second ∈ hands.right.shared := by
  simp only [right, Multiset.mem_map, Multiset.mem_add]
  exact has.imp (fun member => ⟨_, member, rfl⟩) fun member => Or.inl ⟨_, member, rfl⟩

end Hands

/-! ## Linked states -/

namespace State

/-- States that differ at most in which objects their frames refer to. -/
structure Along (links : Links) (state other : State) : Prop where
  scopes : state.scopes.Along links other.scopes
  calls : state.calls.Along links other.calls
  loops : state.loops = other.loops
  output : state.output = other.output

theorem Along.onHeap {links : Links} {state other : State} (along : state.Along links other)
    (heap heap' : Heap) :
    Along links { state with heap := heap } { other with heap := heap' } :=
  ⟨along.scopes, along.calls, along.loops, along.output⟩

/-- What is kept for a literal is what the literal stands for. -/
def Faithful (program : Program) (state : State) : Prop :=
  ∀ (id : ExpressionId) (address : Address), state.literal? id = some address →
    ∃ literal span, program.expression? id = some ⟨.literal literal, span⟩ ∧
      state.heap.payload? address = some (.scalar (literal.scalar program.names)) ∧
      state.heap.type address = (literal.scalar program.names).type

end State

/-- Which of two runs keep literals. -/
inductive Caching where
  /-- The first alone, for a program. -/
  | first (program : Program)
  | both
  /-- Both, but the first may be ahead, with literals of a program. -/
  | ahead (program : Program)

/-- Whether one object of the first run may stand for several of the second, as one that
only the first run keeps for a literal does. -/
def Caching.Loose : Caching → Prop
  | .first _ => True
  | .both => False
  | .ahead _ => False

/-- What is kept for a literal is what the literal stands for, and is linked to nothing. -/
structure State.Spare (program : Program) (links : Links) (state : State) (id : ExpressionId)
    (address : Address) : Prop where
  kept : state.literal? id = some address
  stands : ∃ literal span, program.expression? id = some ⟨.literal literal, span⟩ ∧
    state.heap.payload? address = some (.scalar (literal.scalar program.names)) ∧
    state.heap.type address = (literal.scalar program.names).type
  unlinked : ∀ other, ¬ links address other

/-- What is kept for literals is what they stand for, or linked. -/
def Caching.Keeps (caching : Caching) (links : Links) (state other : State) : Prop :=
  match caching with
  | .first program => state.Faithful program
  | .both => ∀ id : ExpressionId, Option.Rel links (state.literal? id) (other.literal? id)
  | .ahead program => ∀ id : ExpressionId,
      Option.Rel links (state.literal? id) (other.literal? id) ∨
        other.literal? id = none ∧ ∃ address, state.Spare program links id address

/-- What two runs refer to goes along with each other, and their heaps match. -/
structure State.Joined (caching : Caching) (hands : Hands) (state other : State) (links : Links) :
    Prop where
  along : state.Along links other
  has : ∀ {first second}, hands.Has first second → links first second
  agree : state.heap.Matches other.heap links caching.Loose
  keeps : caching.Keeps links state other

/-- Two runs side by side. -/
structure Linked (caching : Caching) (depth : Nat) (hands : Hands) (state other : State) : Prop where
  left : Holding Ledger.Orderly depth hands.left state
  right : Holding Ledger.Orderly depth hands.right other
  joined : ∃ links : Links, State.Joined caching hands state other links

/-! ## What is there -/

section

variable {hand : Hand} {address : Address} (state : State)

theorem Hand.mem_handles (member : address ∈ hand.owned ∨ address ∈ hand.shared) :
    address ∈ (state.ledger hand).handles := by
  rw [Ledger.handles, Multiset.mem_add, Multiset.mem_add]
  exact member.imp id Or.inl

variable {state}

theorem State.mem_handles_of_result (member : address ∈ state.calls.results) (hand : Hand) :
    address ∈ (state.ledger hand).handles := by
  simp only [Ledger.handles, State.ledger, Multiset.mem_add]
  exact Or.inr (Or.inr (Or.inl member))

end

namespace Holding

variable {depth : Nat} {hand : Hand} {state : State} {address : Address}

theorem sound (held : Holding Ledger.Orderly depth hand state) :
    state.heap.Sound state.scopes.bound (state.ledger hand).handles :=
  held.1.sound

theorem present (held : Holding Ledger.Orderly depth hand state)
    (member : address ∈ hand.owned ∨ address ∈ hand.shared) : state.heap.payload? address ≠ none :=
  held.sound.handle_present (hand.mem_handles state member)

theorem result_present (held : Holding Ledger.Orderly depth hand state)
    (member : address ∈ state.calls.results) : state.heap.payload? address ≠ none :=
  held.sound.handle_present (State.mem_handles_of_result member hand)

theorem literal_present (held : Holding Ledger.Orderly depth hand state) {id : ExpressionId}
    (kept : state.literal? id = some address) : state.heap.payload? address ≠ none := by
  apply held.sound.handle_present
  simp only [Ledger.handles, Multiset.mem_add]
  exact Or.inr (Or.inr (Or.inr (State.mem_literals_of_literal? kept hand)))

end Holding

variable {caching : Caching} {program : Program} {depth depth' : Nat} {hands hands' : Hands}
variable {state other after after' : State} {links links' : Links}

/-- Links that are known before can be narrowed to what is there. -/
theorem Linked.advance (left : Holding Ledger.Orderly depth' hands'.left after)
    (right : Holding Ledger.Orderly depth' hands'.right after') (along : after.Along links after')
    (has : ∀ {first second}, hands'.Has first second → links first second)
    (keeps : caching.Keeps links' after after')
    (agree : after.heap.Matches after'.heap links' caching.Loose)
    (wider : ∀ {first second}, links.within after.heap after'.heap first second →
      links' first second) : Linked caching depth' hands' after after' := by
  refine ⟨left, right, links', ⟨?_, ?_, along.loops, along.output⟩, ?_, agree, keeps⟩
  · apply along.scopes.imp
    intro first second bound bound' linked
    exact wider ⟨linked, left.sound.slot_present bound, right.sound.slot_present bound'⟩
  · apply along.calls.imp
    intro first second kept kept' linked
    exact wider ⟨linked, left.result_present kept, right.result_present kept'⟩
  · intro first second held
    exact wider ⟨has held, left.present held.mem_left, right.present held.mem_right⟩

/-- Scalars are as before where they are still there. -/
theorem State.Faithful.keep {hand : Hand} (faithful : state.Faithful program)
    (held : Holding Ledger.Orderly depth hand after) (literals : after.literals = state.literals)
    (steady : ∀ {address value}, state.heap.payload? address = some (.scalar value) →
      after.heap.payload? address ≠ none →
        after.heap.payload? address = some (.scalar value) ∧
          after.heap.type address = state.heap.type address) : after.Faithful program := by
  intro id address kept
  have before : state.literal? id = some address := by
    rw [← kept, State.literal?, State.literal?, literals]
  obtain ⟨literal, span, found, payload, type⟩ := faithful id address before
  obtain ⟨payload', type'⟩ := steady payload (held.literal_present kept)
  exact ⟨literal, span, found, payload', type'.trans type⟩

/-- What is kept is kept while it is there. -/
theorem Caching.Keeps.carry {hand hand' : Hand} (keeps : caching.Keeps links state other)
    (held : Holding Ledger.Orderly depth hand after)
    (held' : Holding Ledger.Orderly depth hand' after') (literals : after.literals = state.literals)
    (literals' : after'.literals = other.literals)
    (steady : ∀ {address value}, state.heap.payload? address = some (.scalar value) →
      after.heap.payload? address ≠ none →
        after.heap.payload? address = some (.scalar value) ∧
          after.heap.type address = state.heap.type address)
    (wider : ∀ {first second}, links.within after.heap after'.heap first second →
      links' first second)
    (onward : links.Onward state.heap.cells.size links') : caching.Keeps links' after after' := by
  have same : ∀ id : ExpressionId, after.literal? id = state.literal? id := by
    intro id
    rw [State.literal?, State.literal?, literals]
  have same' : ∀ id : ExpressionId, after'.literal? id = other.literal? id := by
    intro id
    rw [State.literal?, State.literal?, literals']
  have linked : ∀ {id : ExpressionId}, Option.Rel links (state.literal? id) (other.literal? id) →
      Option.Rel links' (after.literal? id) (after'.literal? id) := by
    intro id both
    rcases cases_of_rel both with ⟨none, none'⟩ | ⟨_, _, kept, kept', linked⟩
    · rw [same, same', none, none']
      exact .none
    · have present := held.literal_present ((same id).trans kept)
      have present' := held'.literal_present ((same' id).trans kept')
      rw [same, same', kept, kept']
      exact .some (wider ⟨linked, present, present'⟩)
  cases caching with
  | first program => exact State.Faithful.keep keeps held literals steady
  | both => exact fun id => linked (keeps id)
  | ahead program =>
      intro id
      apply (keeps id).imp linked
      rintro ⟨missing, address, spare⟩
      obtain ⟨literal, span, found, payload, type⟩ := spare.stands
      have kept := (same id).trans spare.kept
      obtain ⟨payload', type'⟩ := steady payload (held.literal_present kept)
      refine ⟨(same' id).trans missing, address, kept,
        ⟨literal, span, found, payload', type'.trans type⟩, ?_⟩
      intro counterpart known
      have old := Heap.lt_size_of_payload? payload
      exact (onward.known known).elim (spare.unlinked counterpart) (Nat.not_le_of_lt old)

theorem Heap.Survives.steady {before after : Heap} (survives : Heap.Survives before after)
    {address : Address} {payload : Payload} (found : before.payload? address = some payload)
    (present : after.payload? address ≠ none) :
    after.payload? address = some payload ∧ after.type address = before.type address := by
  have old := Heap.lt_size_of_payload? found
  have same := survives.payload?_eq old present
  exact ⟨same.trans found, survives.type old (same.trans found)⟩

namespace Linked

/-- What is linked has the same contents. -/
theorem tree_eq (linked : Linked caching depth hands state other) {first second : Address}
    (has : hands.Has first second) : state.heap.tree first = other.heap.tree second := by
  obtain ⟨links, joined⟩ := linked.joined
  exact joined.agree.tree_eq linked.left.sound.grounded linked.right.sound.grounded (joined.has has)

/-- What both runs do to frames and handles, where objects at most go. -/
theorem survive (linked : Linked caching depth hands state other)
    (left : Holding Ledger.Orderly depth' hands'.left after)
    (right : Holding Ledger.Orderly depth' hands'.right after')
    (literals : after.literals = state.literals) (literals' : after'.literals = other.literals)
    (survives : Heap.Survives state.heap after.heap)
    (survives' : Heap.Survives other.heap after'.heap)
    (known : ∀ {links}, State.Joined caching hands state other links →
      after.Along links after' ∧ ∀ {first second}, hands'.Has first second → links first second) :
    Linked caching depth' hands' after after' := by
  obtain ⟨links, joined⟩ := linked.joined
  obtain ⟨along, has⟩ := known joined
  apply advance left right along has
  · exact joined.keeps.carry left right literals literals' survives.steady id
      (.of_imp fun known => known.1)
  · exact joined.agree.survive survives survives' left.sound.balanced.closed
      right.sound.balanced.closed
  · exact id

/-- Both runs make an object. -/
theorem make {heap heap' : Heap} {first second : Address}
    (linked : Linked caching depth hands state other)
    (left : Holding Ledger.Orderly depth hands'.left { state with heap := heap })
    (right : Holding Ledger.Orderly depth hands'.right { other with heap := heap' })
    (survives : Heap.Survives state.heap heap)
    (grown : ∀ {links}, State.Joined caching hands state other links →
      Heap.Grown links caching.Loose state.heap heap heap' first second)
    (has : ∀ {known counterpart}, hands'.Has known counterpart →
      (known, counterpart) = (first, second) ∨ hands.Has known counterpart) :
    Linked caching depth hands' { state with heap := heap } { other with heap := heap' } := by
  obtain ⟨links, joined⟩ := linked.joined
  obtain ⟨links', agree, new, wider, onward⟩ := grown joined
  have along := joined.along
  apply @advance caching depth hands' _ _ (links.insert first second) links' left right
  · exact ⟨along.scopes.imp fun _ _ => Or.inr, along.calls.imp fun _ _ => Or.inr, along.loops,
      along.output⟩
  · intro known counterpart held
    rcases has held with same | held
    · exact Or.inl (Prod.mk.inj same)
    · exact Or.inr (joined.has held)
  · exact joined.keeps.carry left right rfl rfl survives.steady wider onward
  · exact agree
  · rintro known counterpart ⟨⟨rfl, rfl⟩ | linked, present, present'⟩
    · exact new
    · exact wider ⟨linked, present, present'⟩

/-- A scalar of the second run that is linked to nothing is linked to one of the first. -/
theorem adopt {first second : Address} {value : Scalar}
    (joined : State.Joined caching hands state other links)
    (left : Holding Ledger.Orderly depth (hands.own (first, second)).left after)
    (right : Holding Ledger.Orderly depth (hands.own (first, second)).right after')
    (along : after.Along links after') (survives : Heap.Survives state.heap after.heap)
    (survives' : Heap.Survives other.heap after'.heap)
    (payload : after.heap.payload? first = some (.scalar value))
    (payload' : after'.heap.payload? second = some (.scalar value))
    (type : after.heap.type first = after'.heap.type second)
    (new : other.heap.cells.size ≤ second)
    (apart : (∀ {known}, ¬ links first known) ∨ caching.Loose ∧ value.equals value = true)
    (keeps : caching.Keeps ((links.within after.heap after'.heap).insert first second) after
      after') : Linked caching depth (hands.own (first, second)) after after' := by
  have before := joined.agree.survive survives survives' left.sound.balanced.closed
    right.sound.balanced.closed
  have agree := before.insert payload payload' rfl type
    (fun linked => Nat.not_lt_of_le new (joined.agree.lt_size linked.1).2)
    (apart.imp (fun unlinked _ linked => unlinked linked.1)
      fun loose => ⟨loose.1, value, rfl, loose.2⟩)
  refine @advance caching depth _ _ _ (links.insert first second) _ left right
    ⟨along.scopes.imp fun _ _ => Or.inr, along.calls.imp fun _ _ => Or.inr, along.loops,
      along.output⟩ ?_ keeps agree ?_
  · intro known counterpart held
    rcases Hands.has_own_iff.mp held with same | held
    · exact Or.inl (Prod.mk.inj same)
    · exact Or.inr (joined.has held)
  · rintro known counterpart ⟨same | linked, present, present'⟩
    · exact Or.inl same
    · exact Or.inr ⟨linked, present, present'⟩

theorem stable (depth : Nat) : (Holding Ledger.Orderly depth).Stable ⟨True, False⟩ :=
  Holding.stable Ledger.Orderly.step depth

variable {pairs : List (Address × Address)}

/-- What both runs make takes over the handles that are given for it. -/
theorem craft {heap heap' : Heap} {first second : Address}
    (linked : Linked caching depth (hands.ownAll pairs) state other)
    (makes : Heap.Makes False state.heap (pairs.map Prod.fst : List Address) heap {first})
    (makes' : Heap.Makes False other.heap (pairs.map Prod.snd : List Address) heap' {second})
    (grown : ∀ {links}, State.Joined caching (hands.ownAll pairs) state other links →
      Heap.Grown links caching.Loose state.heap heap heap' first second) :
    Linked caching depth (hands.own (first, second)) { state with heap := heap }
      { other with heap := heap' } := by
  have left := linked.left
  have right := linked.right
  rw [Hands.left_ownAll] at left
  rw [Hands.right_ownAll] at right
  have made := (stable depth).craft makes left
  have made' := (stable depth).craft makes' right
  rw [Multiset.singleton_add] at made made'
  apply linked.make
  · rw [Hands.left_own]
    exact made
  · rw [Hands.right_own]
    exact made'
  · exact makes.crafted.survives
  · exact grown
  · intro known counterpart held
    exact (Hands.has_own_iff.mp held).imp_right fun old => Hands.has_ownAll_iff.mpr (Or.inr old)

theorem create {heap heap' : Heap} {first second : Address}
    (linked : Linked caching depth hands state other)
    (makes : Heap.Makes False state.heap 0 heap {first})
    (makes' : Heap.Makes False other.heap 0 heap' {second})
    (grown : ∀ {links}, State.Joined caching hands state other links →
      Heap.Grown links caching.Loose state.heap heap heap' first second) :
    Linked caching depth (hands.own (first, second)) { state with heap := heap }
      { other with heap := heap' } := by
  rw [← hands.ownAll_nil] at linked
  apply linked.craft makes makes'
  rw [hands.ownAll_nil]
  exact grown

/-! ## Handles that are given back -/

theorem release (linked : Linked caching depth (hands.ownAll pairs) state other) :
    Linked caching depth hands (state.releaseAll (pairs.map Prod.fst))
      (other.releaseAll (pairs.map Prod.snd)) := by
  have left := linked.left
  have right := linked.right
  rw [Hands.left_ownAll] at left
  rw [Hands.right_ownAll] at right
  apply linked.survive ((stable depth).release left) ((stable depth).release right) rfl rfl
    (Heap.Remains.releaseAll _ _).survives (Heap.Remains.releaseAll _ _).survives
  intro links joined
  exact ⟨joined.along.onHeap _ _, fun held => joined.has (Hands.has_ownAll_iff.mpr (Or.inr held))⟩

theorem giveBack (linked : Linked caching depth (hands.shareAll pairs) state other) :
    Linked caching depth hands (state.releaseAll (pairs.map Prod.fst))
      (other.releaseAll (pairs.map Prod.snd)) := by
  have left := linked.left
  have right := linked.right
  rw [Hands.left_shareAll] at left
  rw [Hands.right_shareAll] at right
  apply linked.survive ((stable depth).giveBack left) ((stable depth).giveBack right) rfl rfl
    (Heap.Remains.releaseAll _ _).survives (Heap.Remains.releaseAll _ _).survives
  intro links joined
  exact ⟨joined.along.onHeap _ _, fun held => joined.has (Hands.has_shareAll_iff.mpr (Or.inr held))⟩

/-! ## Handles that are gained -/

/-- Handles on what is linked already. -/
theorem retain (linked : Linked caching depth hands state other) {first second : Address}
    (left : Holding Ledger.Orderly depth hands'.left
      { state with heap := state.heap.retain first })
    (right : Holding Ledger.Orderly depth hands'.right
      { other with heap := other.heap.retain second })
    (has : ∀ {links}, State.Joined caching hands state other links →
      ∀ {known counterpart}, hands'.Has known counterpart → links known counterpart) :
    Linked caching depth hands' { state with heap := state.heap.retain first }
      { other with heap := other.heap.retain second } := by
  apply linked.survive left right rfl rfl (Heap.Remains.retain _ _).survives
    (Heap.Remains.retain _ _).survives
  intro links joined
  exact ⟨joined.along.onHeap _ _, has joined⟩

theorem share (linked : Linked caching depth hands state other) {first second : Address}
    (shown : (state.ledger hands.left).Shows first)
    (shown' : (other.ledger hands.right).Shows second)
    (known : ∀ {links}, State.Joined caching hands state other links → links first second) :
    Linked caching depth (hands.share (first, second))
      { state with heap := state.heap.retain first }
      { other with heap := other.heap.retain second } := by
  apply linked.retain
  · rw [Hands.left_share]
    exact (stable depth).share linked.left shown
  · rw [Hands.right_share]
    exact (stable depth).share linked.right shown'
  · intro links joined one another held
    rcases Hands.has_share_iff.mp held with same | held
    · obtain ⟨rfl, rfl⟩ := Prod.mk.inj same
      exact known joined
    · exact joined.has held

theorem duplicate (linked : Linked caching depth hands state other) {first second : Address}
    {value : Scalar} (scalar : state.heap.scalar? first = some value)
    (known : ∀ {links}, State.Joined caching hands state other links → links first second) :
    Linked caching depth (hands.own (first, second))
      { state with heap := state.heap.retain first }
      { other with heap := other.heap.retain second } := by
  obtain ⟨links, joined⟩ := linked.joined
  have scalar' := (joined.agree.scalar?_eq (known joined)).symm.trans scalar
  apply linked.retain
  · rw [Hands.left_own]
    exact (stable depth).onHeap linked.left (.duplicate (Or.inl ⟨value, scalar⟩))
  · rw [Hands.right_own]
    exact (stable depth).onHeap linked.right (.duplicate (Or.inl ⟨value, scalar'⟩))
  · intro links joined one another held
    rcases Hands.has_own_iff.mp held with same | held
    · obtain ⟨rfl, rfl⟩ := Prod.mk.inj same
      exact known joined
    · exact joined.has held

/-- Owned handles treated like those on stored data. -/
theorem lower {pair : Address × Address}
    (linked : Linked caching depth (hands.own pair) state other) :
    Linked caching depth (hands.share pair) state other := by
  have left := linked.left
  have right := linked.right
  rw [Hands.left_own] at left
  rw [Hands.right_own] at right
  apply linked.survive _ _ rfl rfl (.refl _) (.refl _)
  · intro links joined
    refine ⟨joined.along, fun held => joined.has ?_⟩
    rw [Hands.has_share_iff] at held
    rwa [Hands.has_own_iff]
  · rw [Hands.left_share]
    exact (stable depth).lower left
  · rw [Hands.right_share]
    exact (stable depth).lower right

end Linked

end ScriptEngine
