import ScriptEngine.Proofs.Abreast.Walks
import ScriptEngine.Proofs.Ownership.Assembly

/-!
# Places side by side

A place of one run has a twin in the other: a binding of the same name in the same
frame, or the same slot of a linked container.  What is loaded from twins is linked,
and what is written to twins keeps the heaps matching.
-/

namespace ScriptEngine

open Evaluation

variable {caching : Caching} {depth : Nat} {hands hands' : Hands} {state other : State}
variable {links : Links} {loose : Prop}

namespace Hands

theorem mem_left_of_shared {pair : Address × Address} (shared : pair ∈ hands.shared) :
    pair.1 ∈ hands.left.shared :=
  Multiset.mem_add.mpr (Or.inl (Multiset.mem_map.mpr ⟨pair, shared, rfl⟩))

theorem mem_right_of_shared {pair : Address × Address} (shared : pair ∈ hands.shared) :
    pair.2 ∈ hands.right.shared :=
  Multiset.mem_add.mpr (Or.inl (Multiset.mem_map.mpr ⟨pair, shared, rfl⟩))

end Hands

/-! ## Twins -/

/-- A place of each of two runs, inside containers that are at hand. -/
inductive Twins where
  | binding (depth : Nat) (name : Name)
  | element (vectors : Address × Address) (position : Nat)
  | entry (dicts : Address × Address) (position : Nat)

namespace Twins

def left : Twins → Place
  | .binding depth name => .binding depth name
  | .element vectors position => .element vectors.1 position
  | .entry dicts position => .entry dicts.1 position

def right : Twins → Place
  | .binding depth name => .binding depth name
  | .element vectors position => .element vectors.2 position
  | .entry dicts position => .entry dicts.2 position

/-- The handles that both places own. -/
def pairs : Twins → List (Address × Address)
  | .binding _ _ => []
  | .element vectors _ => [vectors]
  | .entry dicts _ => [dicts]

variable (twins : Twins)

theorem handles_left : twins.left.handles = twins.pairs.map Prod.fst := by
  cases twins <;> rfl

theorem handles_right : twins.right.handles = twins.pairs.map Prod.snd := by
  cases twins <;> rfl

variable {twins}

theorem handles_left_within (within : ∀ pair ∈ twins.pairs, pair ∈ hands.shared) :
    ∀ container ∈ twins.left.handles, container ∈ hands.left.shared := by
  intro container member
  rw [handles_left] at member
  obtain ⟨pair, inside, rfl⟩ := List.mem_map.mp member
  exact Hands.mem_left_of_shared (within pair inside)

theorem handles_right_within (within : ∀ pair ∈ twins.pairs, pair ∈ hands.shared) :
    ∀ container ∈ twins.right.handles, container ∈ hands.right.shared := by
  intro container member
  rw [handles_right] at member
  obtain ⟨pair, inside, rfl⟩ := List.mem_map.mp member
  exact Hands.mem_right_of_shared (within pair inside)

/-- Twins hold linked objects, or cannot be read for one cause. -/
theorem load_linked (joined : State.Joined caching hands state other links)
    (within : ∀ pair ∈ twins.pairs, pair ∈ hands.shared) :
    Heap.Linked links (twins.left.load state.scopes state.heap)
      (twins.right.load other.scopes other.heap) := by
  have known : ∀ pair ∈ twins.pairs, links pair.1 pair.2 :=
    fun pair member => joined.has (Or.inr (within pair member))
  cases twins with
  | binding depth name =>
      simp only [left, right, Place.load]
      rcases cases_of_rel (joined.along.scopes.get? depth name) with ⟨none, none'⟩ |
        ⟨_, _, bound, bound', linked⟩
      · rw [none, none']
        exact .error _
      · rw [bound, bound']
        exact .ok linked
  | element vectors position =>
      have linked := known vectors (List.mem_singleton_self _)
      obtain ⟨payload, content, found, found', related⟩ := joined.agree.payload linked
      simp only [left, right, Place.load, found, found', joined.agree.kind_eq linked]
      cases related.beside with
      | scalar value => exact .error _
      | dict parts => exact .error _
      | vector parts =>
          rcases cases_of_rel (rel_getElem?_of_forall₂ parts position) with ⟨none, none'⟩ |
            ⟨_, _, some, some', linked⟩
          · simp only [none, none', parts.length_eq]
            exact .error _
          · simp only [some, some']
            exact .ok linked
  | entry dicts position =>
      have linked := known dicts (List.mem_singleton_self _)
      obtain ⟨payload, content, found, found', related⟩ := joined.agree.payload linked
      simp only [left, right, Place.load, found, found', joined.agree.kind_eq linked]
      cases related.beside with
      | scalar value => exact .error _
      | vector parts => exact .error _
      | dict parts =>
          rcases cases_of_rel (rel_getElem?_of_forall₂ parts position) with ⟨none, none'⟩ |
            ⟨_, _, some, some', linked⟩
          · simp only [none, none']
            exact .error _
          · simp only [some, some']
            exact .ok linked.2

end Twins

/-! ## One container written to -/

namespace Heap

/-- Scalars are not written to. -/
theorem SurvivesBut.steady {before after : Heap} {container address : Address} {value : Scalar}
    (but : SurvivesBut container before after) (shape : before.IsContainer container)
    (found : before.payload? address = some (.scalar value))
    (present : after.payload? address ≠ none) :
    after.payload? address = some (.scalar value) ∧ after.type address = before.type address := by
  have different : container ≠ address := by
    rintro rfl
    obtain ⟨payload, present, shape⟩ := shape
    cases found.symm.trans present
    exact shape.elim
  have old := lt_size_of_payload? found
  obtain ⟨payload, reached⟩ := Option.ne_none_iff_exists'.mp present
  cases found.symm.trans (but.payload old different reached)
  exact ⟨reached, but.type old reached⟩

variable {left right : Heap} {first second : Address} {payload content : Payload}

theorem Matches.related (agree : left.Matches right links loose) (linked : links first second)
    (found : left.payload? first = some payload) (found' : right.payload? second = some content) :
    Related links payload content := by
  obtain ⟨_, _, present, present', related⟩ := agree.payload linked
  cases found.symm.trans present
  cases found'.symm.trans present'
  exact related

theorem Related.set {elements others : List Address}
    (related : Related links (.vector elements) (.vector others)) (position : Nat)
    (linked : links first second) :
    Related links (.vector (elements.set position first)) (.vector (others.set position second)) := by
  rw [List.set_eq_modify, List.set_eq_modify]
  exact modify_of_forall₂ related position fun _ => linked

/-- Linked keys get entries of linked dicts, each with a new value. -/
theorem Matches.createEntry (agree : left.Matches right links loose) {dict dict' key key' : Address}
    {entries others : List (Address × Address)}
    (linked : links dict dict') (keys : links key key')
    (found : left.payload? dict = some (.dict entries))
    (found' : right.payload? dict' = some (.dict others)) :
    ∃ links', (left.createEntry dict key entries).Matches (right.createEntry dict' key' others)
      links' loose ∧ (∀ {known counterpart}, links known counterpart → links' known counterpart) ∧
        links.Onward left.cells.size links' := by
  obtain ⟨links', agree', new, wider, onward⟩ := agree.newDefault ((left.type dict).parameter 1)
  obtain ⟨still, written⟩ := createEntry_replaces key found
  obtain ⟨still', written'⟩ := createEntry_replaces key' found'
  rw [← agree.type linked] at still' written'
  have kept : ∀ {known counterpart}, links known counterpart → links' known counterpart := by
    intro known counterpart linked
    obtain ⟨payload, content, present, present', _⟩ := agree.payload linked
    refine wider ⟨linked, ?_, ?_⟩
    · simp [payload?_newDefault _ present]
    · simp [payload?_newDefault _ present']
  have related : Related links' (.dict entries) (.dict others) :=
    (agree.related linked found found').imp kept
  refine ⟨links', agree'.replace (kept linked) ⟨_, still, trivial⟩ written written' ?_, kept, onward⟩
  exact List.rel_append related (.cons ⟨kept keys, new⟩ .nil)

end Heap

namespace Linked

/-- Both runs write to a container alike. -/
theorem amend {heap heap' : Heap} {container : Address}
    (linked : Linked caching depth hands state other)
    (left : Holding Ledger.Orderly depth hands'.left { state with heap := heap })
    (right : Holding Ledger.Orderly depth hands'.right { other with heap := heap' })
    (but : Heap.SurvivesBut container state.heap heap) (shape : state.heap.IsContainer container)
    (known : ∀ {links}, State.Joined caching hands state other links →
      ∃ links', heap.Matches heap' links' caching.Loose ∧
        (∀ {first second}, links first second → links' first second) ∧
        links.Onward state.heap.cells.size links' ∧
        ∀ {first second}, hands'.Has first second → links first second) :
    Linked caching depth hands' { state with heap := heap } { other with heap := heap' } := by
  obtain ⟨links, joined⟩ := linked.joined
  obtain ⟨links', agree, wider, onward, has⟩ := known joined
  apply advance left right (joined.along.onHeap heap heap') has
  · exact joined.keeps.carry left right rfl rfl (fun found => but.steady shape found)
      (fun known => wider known.1) onward
  · exact agree
  · exact fun known => wider known.1

variable {container key previous value : Address × Address}

theorem createEntry {entries others : List (Address × Address)}
    (linked : Linked caching depth (hands.own key) state other) (within : container ∈ hands.shared)
    (payload : state.heap.payload? container.1 = some (.dict entries))
    (payload' : other.heap.payload? container.2 = some (.dict others))
    (absent : state.heap.findEntry? entries key.1 = none)
    (absent' : other.heap.findEntry? others key.2 = none) :
    Linked caching depth hands
      { state with heap := state.heap.createEntry container.1 key.1 entries }
      { other with heap := other.heap.createEntry container.2 key.2 others } := by
  have left := linked.left
  have right := linked.right
  rw [Hands.left_own] at left
  rw [Hands.right_own] at right
  apply linked.amend
  · exact (stable depth).createEntry left (Hands.mem_left_of_shared within) payload absent
  · exact (stable depth).createEntry right (Hands.mem_right_of_shared within) payload' absent'
  · exact .createEntry payload
  · exact ⟨_, payload, trivial⟩
  · intro links joined
    have has : ∀ {first second}, hands.Has first second → links first second :=
      fun held => joined.has (Hands.has_own_iff.mpr (Or.inr held))
    obtain ⟨links', agree, wider, onward⟩ := joined.agree.createEntry (has (Or.inr within))
      (joined.has (Hands.has_own_iff.mpr (Or.inl rfl))) payload payload'
    exact ⟨links', agree, wider, onward, has⟩

/-- Both runs replace what a slot of a container holds. -/
theorem refill {payload payload' : Payload}
    (linked : Linked caching depth (hands.own value) state other)
    (within : container ∈ hands.shared) (shape : state.heap.IsContainer container.1)
    (left : Holding Ledger.Orderly depth (hands.share previous).left { state with
      heap := ((state.heap.enterSlot value.1).setPayload container.1 payload).leaveSlot previous.1 })
    (right : Holding Ledger.Orderly depth (hands.share previous).right { other with
      heap := ((other.heap.enterSlot value.2).setPayload container.2 payload').leaveSlot
        previous.2 })
    (known : ∀ {links}, State.Joined caching (hands.own value) state other links →
      links previous.1 previous.2 ∧ Heap.Related links payload payload') :
    Linked caching depth (hands.share previous)
      { state with
        heap := ((state.heap.enterSlot value.1).setPayload container.1 payload).leaveSlot
          previous.1 }
      { other with
        heap := ((other.heap.enterSlot value.2).setPayload container.2 payload').leaveSlot
          previous.2 } := by
  have replaces : ∀ {heap : Heap} {address added removed : Address} {payload : Payload},
      heap.payload? address ≠ none →
        heap.Replaces (((heap.enterSlot added).setPayload address payload).leaveSlot removed) address
          payload := by
    intro heap address added removed payload present
    obtain ⟨content, found⟩ := Option.ne_none_iff_exists'.mp present
    obtain ⟨object, alive, _⟩ := Heap.payload?_eq_some_iff.mp found
    exact @Heap.replaces_setPayload heap address payload [added] [removed] object alive
  obtain ⟨content, found, _⟩ := id shape
  apply linked.amend left right ((replaces (by simp [found])).but (by simp [found])) shape
  intro links joined
  have has : ∀ {first second}, hands.Has first second → links first second :=
    fun held => joined.has (Hands.has_own_iff.mpr (Or.inr held))
  have together := has (Or.inr within)
  obtain ⟨occupant, related⟩ := known joined
  obtain ⟨_, counterpart, _, found', _⟩ := joined.agree.payload together
  refine ⟨links, joined.agree.replace together shape (replaces (by simp [found]))
    (replaces (by simp [found'])) related, id, .of_imp id, ?_⟩
  intro first second held
  rcases Hands.has_share_iff.mp held with rfl | held
  · exact occupant
  · exact has held

/-- What both runs store goes to twin slots, and what was there is handed out. -/
theorem store {twins : Twins} (linked : Linked caching depth (hands.own value) state other)
    (within : ∀ pair ∈ twins.pairs, pair ∈ hands.shared)
    (loaded : twins.left.load state.scopes state.heap = .ok previous.1)
    (loaded' : twins.right.load other.scopes other.heap = .ok previous.2) :
    ∃ scopes heap scopes' heap',
      twins.left.store state.scopes state.heap value.1 = (.ok previous.1, scopes, heap) ∧
      twins.right.store other.scopes other.heap value.2 = (.ok previous.2, scopes', heap') ∧
      Linked caching depth (hands.share previous) { state with scopes := scopes, heap := heap }
        { other with scopes := scopes', heap := heap' } := by
  have handles := Twins.handles_left_within within
  have handles' := Twins.handles_right_within within
  have left := linked.left
  have right := linked.right
  rw [Hands.left_own] at left
  rw [Hands.right_own] at right
  obtain ⟨scopes, heap, stored, skips, step⟩ := @Place.store_step twins.left previous.1
    ⟨True, False⟩ (state.ledger (hands.left.own value.1)) value.1 hands.left.owned
    (Twins.handles_left_within within) loaded rfl
  obtain ⟨scopes', heap', stored', skips', step'⟩ := @Place.store_step twins.right previous.2
    ⟨True, False⟩ (other.ledger (hands.right.own value.2)) value.2 hands.right.owned
    (Twins.handles_right_within within) loaded' rfl
  refine ⟨scopes, heap, scopes', heap', stored, stored', ?_⟩
  have left : Holding Ledger.Orderly depth (hands.share previous).left
      { state with scopes := scopes, heap := heap } := by
    have held := linked.left
    rw [Hands.left_own] at held
    rw [Hands.left_share]
    exact (stable depth).step held step ⟨rfl, rfl, skips⟩
  have right : Holding Ledger.Orderly depth (hands.share previous).right
      { other with scopes := scopes', heap := heap' } := by
    have held := linked.right
    rw [Hands.right_own] at held
    rw [Hands.right_share]
    exact (stable depth).step held step' ⟨rfl, rfl, skips'⟩
  have occupants : ∀ {links}, State.Joined caching (hands.own value) state other links →
      links previous.1 previous.2 := by
    intro links joined
    have both := @Twins.load_linked _ _ _ _ _ twins joined within
    rw [loaded, loaded'] at both
    cases both with
    | ok linked => exact linked
  have given : ∀ {links}, State.Joined caching (hands.own value) state other links →
      links value.1 value.2 :=
    fun joined => joined.has (Hands.has_own_iff.mpr (Or.inl rfl))
  cases stored.symm.trans (Place.store_of_load loaded value.1)
  cases stored'.symm.trans (Place.store_of_load loaded' value.2)
  have known : ∀ {links}, State.Joined caching (hands.own value) state other links →
      ∀ pair ∈ twins.pairs, links pair.1 pair.2 :=
    fun joined pair member => joined.has (Or.inr (within pair member))
  obtain ⟨links, joined⟩ := linked.joined
  cases twins with
  | binding position name =>
      apply linked.survive left right rfl rfl
      · exact ((Heap.Remains.enterSlot _ _).trans (Heap.Remains.leaveSlot _ _)).survives
      · exact ((Heap.Remains.enterSlot _ _).trans (Heap.Remains.leaveSlot _ _)).survives
      · intro links joined
        have along := joined.along
        refine ⟨⟨?_, along.calls, along.loops, along.output⟩, ?_⟩
        · exact along.scopes.modifyFrame position fun both => both.put name (given joined)
        · intro first second held
          rcases Hands.has_share_iff.mp held with rfl | held
          · exact occupants joined
          · exact joined.has (Hands.has_own_iff.mpr (Or.inr held))
  | element vectors position =>
      have member : vectors ∈ (Twins.element vectors position).pairs := List.mem_singleton_self _
      obtain ⟨payload, content, found, found', related⟩ :=
        joined.agree.payload (known joined vectors member)
      simp only [Twins.left, Twins.right, Place.load, found, found'] at loaded loaded'
      cases related.beside with
      | scalar value => cases loaded
      | dict parts => cases loaded
      | vector parts =>
          simp only [Twins.left, Twins.right, Place.point, Heap.payload?_enterSlot, found, found']
            at left right ⊢
          apply linked.refill (within vectors member) ⟨_, found, trivial⟩ left right
          intro links joined
          have related := joined.agree.related (known joined vectors member) found found'
          exact ⟨occupants joined, related.set position (given joined)⟩
  | entry dicts position =>
      have member : dicts ∈ (Twins.entry dicts position).pairs := List.mem_singleton_self _
      obtain ⟨payload, content, found, found', related⟩ :=
        joined.agree.payload (known joined dicts member)
      simp only [Twins.left, Twins.right, Place.load, found, found'] at loaded loaded'
      cases related.beside with
      | scalar value => cases loaded
      | vector parts => cases loaded
      | dict parts =>
          simp only [Twins.left, Twins.right, Place.point, Heap.payload?_enterSlot, found, found']
            at left right ⊢
          apply linked.refill (within dicts member) ⟨_, found, trivial⟩ left right
          intro links joined
          have related := joined.agree.related (known joined dicts member) found found'
          exact ⟨occupants joined, related.setEntry position (given joined)⟩

/-- A place inside a container has a handle on it in both runs. -/
theorem locate (linked : Linked caching depth (hands.own key) state other)
    (within : container ∈ hands.shared) :
    Both
      (fun place place' => ∃ twins : Twins, place = twins.left ∧ place' = twins.right ∧
        Linked caching depth (hands.shareAll twins.pairs)
          { state with heap := (state.heap.locate container.1 key.1 .write).2 }
          { other with heap := (other.heap.locate container.2 key.2 .write).2 })
      (Linked caching depth hands
        { state with heap := (state.heap.locate container.1 key.1 .write).2 }
        { other with heap := (other.heap.locate container.2 key.2 .write).2 })
      (state.heap.locate container.1 key.1 .write).1
      (other.heap.locate container.2 key.2 .write).1 := by
  obtain ⟨links, joined⟩ := linked.joined
  have together : links container.1 container.2 :=
    joined.has (Hands.has_own_iff.mpr (Or.inr (Or.inr within)))
  have keys : links key.1 key.2 := joined.has (Hands.has_own_iff.mpr (Or.inl rfl))
  have spots := joined.agree.spot_eq linked.left.sound.grounded linked.right.sound.grounded together
    keys
  -- a handle on the container for the place, in states where the key is used up
  have walked : ∀ {heap heap' : Heap} (twins : Twins), twins.pairs = [container] →
      Linked caching depth hands { state with heap := heap } { other with heap := heap' } →
        Linked caching depth (hands.shareAll twins.pairs)
          { state with heap := heap.retain container.1 }
          { other with heap := heap'.retain container.2 } := by
    intro heap heap' twins only linked
    rw [only, Hands.shareAll_cons, Hands.shareAll_nil]
    apply linked.share
    · exact Or.inr (Or.inl (Hands.mem_left_of_shared within))
    · exact Or.inr (Or.inl (Hands.mem_right_of_shared within))
    · exact fun joined => joined.has (Or.inr within)
  unfold Heap.locate
  rw [← spots]
  cases found : state.heap.spot container.1 key.1 with
  | error cause => exact .error cause linked.releaseOne
  | ok spot =>
      cases spot with
      | element position =>
          exact .ok ⟨.element container position, rfl, rfl, walked _ rfl linked.releaseOne⟩
      | entry position =>
          exact .ok ⟨.entry container position, rfl, rfl, walked _ rfl linked.releaseOne⟩
      | absent =>
          obtain ⟨payload, missing⟩ := Heap.dict_of_absent found
          obtain ⟨payload', missing'⟩ := Heap.dict_of_absent (spots.symm.trans found)
          have created := linked.createEntry within payload payload' missing missing'
          have entries : (state.heap.entries container.1).length =
              (other.heap.entries container.2).length :=
            List.Forall₂.length_eq (joined.agree.entries_related together)
          refine .ok ⟨.entry container (state.heap.entries container.1).length, rfl, ?_,
            walked _ rfl created⟩
          rw [entries]
          rfl

end Linked

namespace Evaluation

variable {setup : Setup} {operands operands' : Operands} {known : ExpressionId → Prop}

/-! ## Walks to places -/

/-- Both runs are led to twins, and have the handles that these own. -/
def Placing (caching : Caching) (depth : Nat) (before hands : Hands)
    (first second : Evaluation Place) : Prop :=
  Abreast (Linked caching depth before) first second
    (fun place place' state state' => ∃ twins : Twins, place = twins.left ∧ place' = twins.right ∧
      Linked caching depth (hands.shareAll twins.pairs) state state')
    (Linked caching depth hands)

theorem loadPlace_abreast {twins : Twins} (within : ∀ pair ∈ twins.pairs, pair ∈ hands.shared) :
    Abreast (Linked caching depth hands) (loadPlace twins.left) (loadPlace twins.right)
      (fun address other => Linked caching depth (hands.share (address, other)))
      (Linked caching depth hands) := by
  intro state state' linked
  obtain ⟨links, joined⟩ := linked.joined
  have both := @Twins.load_linked _ _ _ _ _ twins joined within
  cases loaded : twins.left.load state.scopes state.heap with
  | error cause =>
      cases loaded' : twins.right.load state'.scopes state'.heap with
      | error cause' =>
          rw [loaded, loaded'] at both
          cases both
          rw [loadPlace_of_error loaded, loadPlace_of_error loaded']
          exact .failure _ linked
      | ok second =>
          rw [loaded, loaded'] at both
          cases both
  | ok first =>
      cases loaded' : twins.right.load state'.scopes state'.heap with
      | error cause' =>
          rw [loaded, loaded'] at both
          cases both
      | ok second =>
          rw [loadPlace_of_ok loaded, loadPlace_of_ok loaded']
          apply Outcome.Abreast.value
          apply linked.share
          · exact Place.shown_of_load loaded (Twins.handles_left_within within)
          · exact Place.shown_of_load loaded' (Twins.handles_right_within within)
          · intro links joined
            have both := @Twins.load_linked _ _ _ _ _ twins joined within
            rw [loaded, loaded'] at both
            cases both with
            | ok linked => exact linked

theorem locateForWriting_abreast {container : Address × Address} (within : container ∈ hands.shared)
    (key : Address × Address) :
    Placing caching depth (hands.own key) hands (locateForWriting container.1 key.1)
      (locateForWriting container.2 key.2) := by
  have walked : Abreast (Linked caching depth (hands.own key))
      (onHeap (·.locate container.1 key.1 .write)) (onHeap (·.locate container.2 key.2 .write))
      (fun result other state state' => Both
        (fun place place' => ∃ twins : Twins, place = twins.left ∧ place' = twins.right ∧
          Linked caching depth (hands.shareAll twins.pairs) state state')
        (Linked caching depth hands state state') result other)
      (Linked caching depth hands) :=
    fun state state' linked => .value (linked.locate within)
  exact walked.bind fun result other => Abreast.give result other

/-- One key further than a container that was loaded. -/
theorem innerPlace_abreast (both : operands.Abreast caching depth known operands')
    {index : ExpressionId} (here : known index) (container container' : Address) :
    Placing caching depth (hands.share (container, container')) hands
      (holding [container] do
        let key ← operands.evaluate index
        located (setup.program.spanOf index) (locateForWriting container key))
      (holding [container'] do
        let key ← operands'.evaluate index
        located (setup.program.spanOf index) (locateForWriting container' key)) := by
  have walked : Placing caching depth (hands.share (container, container')) (hands.share (container, container'))
      (do
        let key ← operands.evaluate index
        located (setup.program.spanOf index) (locateForWriting container key))
      (do
        let key ← operands'.evaluate index
        located (setup.program.spanOf index) (locateForWriting container' key)) := by
    apply Abreast.bind (both.evaluate here _)
    intro key key'
    apply Abreast.located
    have within : (container, container') ∈ (hands.share (container, container')).shared :=
      Multiset.mem_cons_self _ _
    exact locateForWriting_abreast within (key, key')
  apply Abreast.ensuring
  apply walked.weaken
  · intro state state' linked
    exact linked
  · rintro place place' state state' ⟨twins, rfl, rfl, linked⟩
    refine ⟨twins, rfl, rfl, ?_⟩
    rw [Hands.shareAll_share, ← (hands.shareAll twins.pairs).shareAll_nil,
      ← Hands.shareAll_cons] at linked
    exact linked.giveBack
  · intro state state' linked
    rw [← hands.shareAll_nil, ← Hands.shareAll_cons] at linked
    exact linked.giveBack

theorem placeChain_abreast (both : operands.Abreast caching depth known operands')
    {indices : List ExpressionId} (all : ∀ id ∈ indices, known id) (twins : Twins) :
    Placing caching depth (hands.shareAll twins.pairs) hands
      (placeChain setup operands twins.left indices)
      (placeChain setup operands' twins.right indices) := by
  induction indices generalizing twins with
  | nil => exact Abreast.pure fun _ _ linked => ⟨twins, rfl, rfl, linked⟩
  | cons index others induction =>
      rw [List.forall_mem_cons] at all
      have walked : Placing caching depth (hands.shareAll twins.pairs) hands
          (holding twins.left.handles do
            let container ← loadPlace twins.left
            holding [container] do
              let key ← operands.evaluate index
              located (setup.program.spanOf index) (locateForWriting container key))
          (holding twins.right.handles do
            let container ← loadPlace twins.right
            holding [container] do
              let key ← operands'.evaluate index
              located (setup.program.spanOf index) (locateForWriting container key)) := by
        rw [twins.handles_left, twins.handles_right]
        apply Abreast.ensuring
        have loads := @loadPlace_abreast caching depth (hands.shareAll twins.pairs) twins
          fun pair member => Multiset.mem_add.mpr (Or.inl member)
        have steps := loads.bind fun container container' =>
          @innerPlace_abreast caching depth (hands.shareAll twins.pairs) setup operands operands'
            known both index all.1 container container'
        apply steps.weaken
        · intro state state' linked
          exact linked
        · rintro place place' state state' ⟨next, rfl, rfl, linked⟩
          rw [Hands.shareAll_comm] at linked
          exact ⟨next, rfl, rfl, linked.giveBack⟩
        · intro state state' linked
          exact linked.giveBack
      exact walked.bind_joint fun next => induction all.2 next

theorem bindingPlace_abreast (name : Name) :
    Placing caching depth hands hands (bindingPlace setup name) (bindingPlace setup name) := by
  apply Abreast.bind_same (Abreast.glance _)
  · intro found
    cases found with
    | some position =>
        apply Abreast.pure
        intro state state' linked
        refine ⟨.binding position name, rfl, rfl, ?_⟩
        rwa [Twins.pairs, Hands.shareAll_nil]
    | none => exact Abreast.fail _ fun _ _ linked => linked
  · intro state state' linked
    obtain ⟨links, joined⟩ := linked.joined
    rw [joined.along.scopes.resolve?_eq, joined.along.calls.scopeFloor_eq]

/-- The targets among known expressions, side by side. -/
def Targets (caching : Caching) (depth : Nat) (known : ExpressionId → Prop)
    (operands operands' : Operands) : Prop :=
  ∀ {id}, known id → ∀ hands,
    Placing caching depth hands hands (operands.target id) (operands'.target id)

theorem targetExpression_abreast (both : operands.Abreast caching depth known operands')
    (targets : Targets caching depth known operands operands') {node : Expression} {span : Span}
    (all : ∀ operand ∈ node.operands, known operand) :
    Placing caching depth hands hands (targetExpression setup operands node span)
      (targetExpression setup operands' node span) := by
  have invalid : Placing caching depth hands hands
      (located span (fail .invalidAssignmentTarget)) (located span (fail .invalidAssignmentTarget)) :=
    (Abreast.fail _ fun _ _ linked => linked).located span
  cases node with
  | reference name => exact (bindingPlace_abreast name).located span
  | index base indices =>
      have inside : ∀ operand ∈ base :: indices, known operand := all
      rw [List.forall_mem_cons] at inside
      apply Abreast.bind_joint (targets inside.1 hands)
      intro twins
      exact placeChain_abreast both inside.2 twins
  | _ => exact invalid

/-! ## Assignments -/

theorem storeIn_abreast {twins : Twins} (within : ∀ pair ∈ twins.pairs, pair ∈ hands.shared)
    (value : Address × Address) :
    Abreast (Linked caching depth (hands.own value)) (storeIn twins.left value.1)
      (storeIn twins.right value.2) (fun _ _ => Linked caching depth hands)
      (Linked caching depth hands) := by
  intro state state' linked
  obtain ⟨links, joined⟩ := linked.joined
  have both := @Twins.load_linked _ _ _ _ _ twins joined within
  cases loaded : twins.left.load state.scopes state.heap with
  | error cause =>
      cases loaded' : twins.right.load state'.scopes state'.heap with
      | error cause' =>
          rw [loaded, loaded'] at both
          cases both
          rw [storeIn_of_error loaded, storeIn_of_error loaded']
          rw [← hands.ownAll_nil, ← Hands.ownAll_cons] at linked
          exact .failure _ linked.release
      | ok second =>
          rw [loaded, loaded'] at both
          cases both
  | ok first =>
      cases loaded' : twins.right.load state'.scopes state'.heap with
      | error cause' =>
          rw [loaded, loaded'] at both
          cases both
      | ok second =>
          obtain ⟨scopes, heap, scopes', heap', stored, stored', kept⟩ :=
            @Linked.store _ _ _ _ _ (first, second) value twins linked within loaded loaded'
          rw [storeIn_of_store stored, storeIn_of_store stored']
          rw [← hands.shareAll_nil, ← Hands.shareAll_cons] at kept
          exact .value kept.giveBack

theorem assign_abreast (both : operands.Abreast caching depth known operands')
    (targets : Targets caching depth known operands operands') {target value : ExpressionId}
    (named : known target) (given : known value) :
    Abreast (Linked caching depth hands) (assign operands target value)
      (assign operands' target value)
      (fun address other => Linked caching depth (hands.own (address, other)))
      (Linked caching depth hands) := by
  apply Abreast.bind_joint (targets named hands)
  intro twins
  rw [twins.handles_left, twins.handles_right]
  apply Abreast.holdingShared twins.pairs
  apply Abreast.bind (both.evaluate given _)
  intro stored stored'
  apply Abreast.bind (Abreast.copy (Hands.has_own_iff.mpr (Or.inl rfl)))
  intro result result'
  apply Abreast.bind
  · apply Abreast.guardingHeld [(result, result')]
    rw [Hands.ownAll_cons, Hands.ownAll_nil, Hands.own_own]
    apply storeIn_abreast
    intro pair member
    exact Multiset.mem_add.mpr (Or.inl member)
  · intro _ _
    exact Abreast.pure fun _ _ linked => linked

end Evaluation

end ScriptEngine
