import ScriptEngine.Proofs.Hosting.Accounts
import ScriptEngine.Proofs.Hosting.Assignments
import ScriptEngine.Proofs.Hosting.Stacks
import ScriptEngine.Proofs.Ownership.Evolution

/-!
# Places that last

A place is resolved before the value that is stored in it is evaluated.  Whatever
that evaluation does, the slot is still there afterwards: no evaluation unbinds a
name or drops a frame that it did not push, and the handle of the place keeps its
container alive, which loses no slot while it lives.
-/

namespace ScriptEngine

open Evaluation

/-! ## Slots that were found -/

theorem lt_of_vectorPosition {key : Payload} {length position : Nat}
    (found : vectorPosition key length = .ok position) : position < length := by
  have checked : ∀ {number : Int},
      (if 0 ≤ number ∧ number < length then Except.ok number.toNat
        else Except.error (Cause.indexOutOfRange (toString number) length)) = .ok position →
      position < length := by
    intro number checks
    split at checks
    · cases checks
      omega
    · simp at checks
  unfold vectorPosition at found
  split at found
  · exact checked found
  · exact checked found
  · simp at found

namespace Heap

variable {heap : Heap} {container key : Address} {position : Nat}

theorem element_of_spot (found : heap.spot container key = .ok (.element position)) :
    ∃ elements value, heap.payload? container = some (.vector elements) ∧
      elements[position]? = some value := by
  unfold spot at found
  split at found
  · rename_i elements payload
    split at found
    · rename_i index _
      cases placed : vectorPosition index elements.length with
      | error cause => simp [placed, Except.map] at found
      | ok place =>
          simp only [placed, Except.map, Except.ok.injEq, Spot.element.injEq] at found
          subst found
          have inside := lt_of_vectorPosition placed
          exact ⟨elements, elements[place], payload, List.getElem?_eq_getElem inside⟩
    · simp at found
  · split at found
    · simp at found
    · simp at found
  · simp at found

theorem entry_of_spot (found : heap.spot container key = .ok (.entry position)) :
    ∃ entries entry, heap.payload? container = some (.dict entries) ∧
      entries[position]? = some entry := by
  unfold spot at found
  split at found
  · rename_i elements payload
    split at found
    · rename_i index _
      cases place : vectorPosition index elements.length with
      | error cause => simp [place, Except.map] at found
      | ok place => simp [place, Except.map] at found
    · simp at found
  · rename_i entries payload
    split at found
    · rename_i place present
      cases found
      obtain ⟨inside, _⟩ := List.findIdx?_eq_some_iff_getElem.mp present
      exact ⟨entries, entries[position], payload, List.getElem?_eq_getElem inside⟩
    · simp at found
  · simp at found

/-- What is located for reading can be loaded, and is what reading gives. -/
theorem valueAt_of_locate {place : Place} (located : (heap.locate container key .read).1 = .ok place)
    (scopes : Scopes) :
    ∃ value, place.load scopes heap = .ok value ∧ heap.valueAt container key = .ok value := by
  unfold locate at located
  split at located
  · simp at located
  · rename_i position found
    cases located
    obtain ⟨elements, value, payload, stored⟩ := element_of_spot found
    exact ⟨value, by simp [Place.load, payload, stored],
      by simp [valueAt, found, element?, payload, stored]⟩
  · rename_i position found
    cases located
    obtain ⟨entries, entry, payload, stored⟩ := entry_of_spot found
    exact ⟨entry.2, by simp [Place.load, payload, stored],
      by simp [valueAt, found, entry?, Heap.entries, payload, stored]⟩
  · simp at located

end Heap

namespace Place

variable {place : Place} {scopes later : Scopes} {before after : Heap} {value : Address}

/-- A slot is there as long as its container lives. -/
theorem load_of_evolves (loaded : place.load scopes before = .ok value)
    (evolves : before.Evolves after)
    (alive : ∀ container ∈ place.handles, ∃ object, after.get? container = some object)
    (bound : ∀ position name, scopes.binds position name = true →
      later.binds position name = true) :
    ∃ value, place.load later after = .ok value := by
  cases place with
  | binding depth name =>
      simp only [load] at loaded ⊢
      split at loaded
      · rename_i found
        have still := bound depth name (by rw [Scopes.binds, found]; rfl)
        obtain ⟨value, present⟩ := Option.isSome_iff_exists.mp still
        exact ⟨value, by rw [present]⟩
      · simp at loaded
  | element vector position =>
      obtain ⟨object, living⟩ := alive vector (List.mem_singleton_self vector)
      simp only [load] at loaded ⊢
      split at loaded
      · rename_i elements found
        obtain ⟨elements', same, length⟩ := evolves.vector found (Heap.payload?_of_get? living)
        rw [Heap.payload?_of_get? living, same]
        split at loaded
        · rename_i stored
          have inside := (List.getElem?_eq_some_iff.mp stored).1
          rw [← length] at inside
          exact ⟨elements'[position], by simp [List.getElem?_eq_getElem inside]⟩
        · simp at loaded
      · simp at loaded
  | entry dict position =>
      obtain ⟨object, living⟩ := alive dict (List.mem_singleton_self dict)
      simp only [load] at loaded ⊢
      split at loaded
      · rename_i entries found
        obtain ⟨entries', same, grown⟩ := evolves.dict found (Heap.payload?_of_get? living)
        rw [Heap.payload?_of_get? living, same]
        split at loaded
        · rename_i stored
          have lengths := grown.length_le
          rw [List.length_map, List.length_map] at lengths
          have inside := (List.getElem?_eq_some_iff.mp stored).1.trans_le lengths
          exact ⟨entries'[position].2, by simp [List.getElem?_eq_getElem inside]⟩
        · simp at loaded
      · simp at loaded

/-- There is an object in the place. -/
def Loads (place : Place) (state : State) : Prop :=
  ∃ value, place.load state.scopes state.heap = .ok value

/-- A place with a handle on its container outlasts what happens to the heap. -/
theorem Loads.evolve {state last : State} {hand : Hand} (loads : place.Loads state)
    (evolves : state.heap.Evolves last.heap)
    (bound : ∀ position name, state.scopes.binds position name = true →
      last.scopes.binds position name = true)
    (balanced : (last.ledger hand).Balanced)
    (shared : ∀ container ∈ place.handles, container ∈ hand.shared) : place.Loads last := by
  obtain ⟨value, loaded⟩ := loads
  apply load_of_evolves loaded evolves _ bound
  intro container member
  apply balanced.heap.alive
  simp [Ledger.handles, State.ledger, shared container member]

theorem Loads.releaseAll {state : State} {hand : Hand} (loads : place.Loads state)
    {addresses : List Address}
    (balanced : ((state.releaseAll addresses).ledger (hand.shareAll place.handles)).Balanced) :
    place.Loads (state.releaseAll addresses) :=
  loads.evolve (Heap.Remains.releaseAll _ _).evolves (fun _ _ bound => bound) balanced
    fun _ member => Multiset.mem_add.mpr (Or.inl member)

/-- What is located for writing can be loaded. -/
theorem loads_of_locate {state : State} {hand : Hand} {heap : Heap} {container key : Address}
    (located : state.heap.locate container key .write = (.ok place, heap))
    (balanced : (State.ledger { state with heap := heap }
      (hand.shareAll place.handles)).Balanced) :
    place.Loads { state with heap := heap } := by
  have shared : ∀ container ∈ place.handles,
      container ∈ (hand.shareAll place.handles).shared :=
    fun _ member => Multiset.mem_add.mpr (Or.inl member)
  unfold Heap.locate at located
  split at located
  · simp at located
  · rename_i position found
    cases located
    obtain ⟨elements, value, payload, stored⟩ := Heap.element_of_spot found
    have loads : Loads (.element container position) state :=
      ⟨value, by simp [load, payload, stored]⟩
    exact loads.evolve ((Heap.Remains.release _ _).trans (Heap.Remains.retain _ _)).evolves
      (fun _ _ bound => bound) balanced shared
  · rename_i position found
    cases located
    obtain ⟨entries, entry, payload, stored⟩ := Heap.entry_of_spot found
    have loads : Loads (.entry container position) state :=
      ⟨entry.2, by simp [load, payload, stored]⟩
    exact loads.evolve ((Heap.Remains.release _ _).trans (Heap.Remains.retain _ _)).evolves
      (fun _ _ bound => bound) balanced shared
  · rename_i absent
    cases located
    obtain ⟨payload, _⟩ := Heap.dict_of_absent absent
    have created := (Heap.createEntry_replaces key payload).2.written
    refine ⟨(state.heap.newDefault ((state.heap.type container).parameter 1)).1, ?_⟩
    simp only [load, Heap.payload?_retain, created]
    rw [List.getElem?_concat_length]

end Place

/-! ## Walks -/

namespace Evaluation

variable {licence : Licence} {property : Ledger → Prop} {setup : Setup} {operands : Operands}
  {depth : Nat}

/-- A place with its handle, in which there is an object. -/
def Standing (property : Ledger → Prop) (depth : Nat) (hand : Hand) (place : Place) (state : State) :
    Prop :=
  Holding property depth (hand.shareAll place.handles) state ∧ place.Loads state

theorem placeChain_append (earlier later : List ExpressionId) (place : Place) :
    placeChain setup operands place (earlier ++ later) =
      placeChain setup operands place earlier >>= fun next =>
        placeChain setup operands next later := by
  induction earlier generalizing place with
  | nil => rfl
  | cons index others induction =>
      rw [List.cons_append, placeChain, placeChain, LawfulMonad.bind_assoc]
      congr 1
      funext next
      exact induction next

theorem bindingPlace_standing (name : Name) (hand : Hand) :
    Triple (Holding property depth hand) (bindingPlace setup name)
      (Standing property depth hand) (fun _ => True) := by
  intro state held
  unfold bindingPlace
  rw [bind_run]
  simp only [read]
  cases resolved : state.scopes.resolve? name state.calls.scopeFloor with
  | none => exact trivial
  | some position =>
      refine ⟨by rwa [Place.handles, Hand.shareAll_nil], ?_⟩
      obtain ⟨value, found⟩ := Scopes.exists_get?_of_resolve? resolved
      exact ⟨value, by simp [Place.load, found]⟩

section

variable (lasting : Ledger.Lasting licence property)
  (balances : ∀ {ledger : Ledger}, property ledger → ledger.Balanced)
include lasting balances

theorem locateForWriting_standing (container key : Address) (hand : Hand)
    (shared : container ∈ hand.shared) :
    Triple (Holding property depth (hand.own key)) (locateForWriting container key)
      (Standing property depth hand) (fun _ => True) := by
  have triple := locateForWriting_triple (Holding.stable lasting depth) container key hand shared
  intro state held
  have ended := triple state held
  unfold locateForWriting at ended ⊢
  rw [bind_run] at ended ⊢
  simp only [onHeap, State.onHeap] at ended ⊢
  cases located : state.heap.locate container key .write with
  | mk result heap =>
      rw [located] at ended
      cases result with
      | error cause => exact trivial
      | ok place => exact ⟨ended.1, Place.loads_of_locate located (balances ended.1.1)⟩

/-- Other handles can be given back. -/
theorem Standing.releaseAll {hand : Hand} {place : Place} {state : State} {addresses : List Address}
    (standing : Standing property depth (hand.shareAll addresses) place state) :
    Standing property depth hand place (state.releaseAll addresses) := by
  obtain ⟨held, loads⟩ := standing
  rw [Hand.shareAll_comm] at held
  have kept := (Holding.stable lasting depth).giveBack held
  exact ⟨kept, loads.releaseAll (balances kept.1)⟩

theorem placeStep_standing (sound : operands.Sound (Holding property depth)) (index : ExpressionId)
    (place : Place) (hand : Hand) :
    Triple (Standing property depth hand place)
      (holding place.handles do
        let container ← loadPlace place
        holding [container] do
          let key ← operands.evaluate index
          located (setup.program.spanOf index) (locateForWriting container key))
      (Standing property depth hand) (fun _ => True) := by
  have stable := Holding.stable lasting depth
  apply Triple.ensuring
  have loaded : Triple (Standing property depth hand place) (loadPlace place)
      (fun address => Holding property depth ((hand.shareAll place.handles).share address))
      (fun _ => True) := by
    apply (loadPlace_triple stable place (hand.shareAll place.handles) ?_).weaken
    · exact fun _ standing => standing.1
    · exact fun _ _ held => held
    · exact fun _ _ => trivial
    · exact fun _ member => Multiset.mem_add.mpr (Or.inl member)
  apply Triple.bind loaded
  intro container
  apply Triple.ensuring
  apply Triple.bind
  · apply (sound.evaluate index _).weaken
    · exact fun _ held => held
    · exact fun _ _ held => held
    · exact fun _ _ => trivial
  · intro key
    apply Triple.located
    apply (locateForWriting_standing lasting balances container key
      ((hand.shareAll place.handles).share container) (Multiset.mem_cons_self _ _)).weaken
    · exact fun _ held => held
    · intro next state standing
      rw [← (hand.shareAll place.handles).shareAll_nil, ← Hand.shareAll_cons] at standing
      exact (standing.releaseAll lasting balances).releaseAll lasting balances
    · exact fun _ _ => trivial

theorem placeChain_standing (sound : operands.Sound (Holding property depth))
    (indices : List ExpressionId) (place : Place) (hand : Hand) :
    Triple (Standing property depth hand place) (placeChain setup operands place indices)
      (Standing property depth hand) (fun _ => True) := by
  induction indices generalizing place with
  | nil => exact Triple.pure fun _ standing => standing
  | cons index others induction =>
      apply Triple.bind (placeStep_standing lasting balances sound index place hand)
      intro next
      exact induction next

/-- The place that an expression names can be loaded. -/
theorem target_standing (abides : setup.builtins.Abides licence.careless) (fuel : Nat)
    (target : ExpressionId) (hand : Hand) :
    Triple (Holding property depth hand) ((Nested.withFuel setup fuel).target target)
      (Standing property depth hand) (fun _ => True) := by
  induction fuel generalizing target with
  | zero => exact Triple.stop (by simp)
  | succ fuel induction =>
      show Triple _ (withExpression setup target _) _ _
      unfold withExpression
      cases setup.program.expression? target with
      | none => exact Triple.stop (by simp)
      | some entry =>
          obtain ⟨node, span⟩ := entry
          cases node with
          | reference name => exact Triple.located (bindingPlace_standing name hand)
          | index base indices =>
              have sound := (Nested.withFuel_sound lasting abides fuel).operands depth
              apply Triple.bind (induction base)
              intro place
              exact placeChain_standing lasting balances sound indices place hand
          | _ => exact Triple.located (Triple.fail fun _ _ => trivial)

end

theorem standing_of_target (abides : setup.builtins.Abides licence.careless) {fuel : Nat}
    {target : ExpressionId} {start walked : State} {hand : Hand} {place : Place}
    (orderly : (start.ledger hand).Orderly)
    (targeted : (Nested.withFuel setup fuel).target target start = .value place walked) :
    Standing Ledger.Orderly start.calls.depth hand place walked := by
  have started : Holding Ledger.Orderly start.calls.depth hand start := ⟨orderly, rfl⟩
  have lasting := @Ledger.Orderly.step licence
  exact (target_standing lasting (fun orderly => orderly.balanced) abides fuel target
    hand).of_value started targeted

/-- Once the target has been walked and the value evaluated, the store succeeds. -/
theorem storeIn_ends (abides : setup.builtins.Abides licence.careless) {fuel : Nat}
    {target value : ExpressionId} {start walked evaluated before : State} {hand : Hand}
    {place : Place} {stored copied : Address} (orderly : (start.ledger hand).Orderly)
    (targeted : (Nested.withFuel setup fuel).target target start = .value place walked)
    (valued : (Nested.withFuel setup fuel).evaluate value walked = .value stored evaluated)
    (duplicated : copy stored evaluated = .value copied before) :
    ∃ previous scopes heap, place.store before.scopes before.heap stored =
      (.ok previous, scopes, heap) := by
  have evolving := @Ledger.EvolvedFrom.step licence walked.heap
  have related := Nested.withFuel_related (.keeping setup) fuel
  have stable := Holding.stable evolving start.calls.depth
  obtain ⟨⟨walking, calls⟩, loads⟩ := standing_of_target abides orderly targeted
  have sound := (Nested.withFuel_sound evolving abides fuel).operands start.calls.depth
  have owned := (sound.evaluate value _).of_value ⟨walking.evolved, calls⟩ valued
  have copies := @Triple.copy _ _ (fun _ => True) ((hand.shareAll place.handles).own stored) stable
    stored
  obtain ⟨evolved, _⟩ := copies.of_value owned duplicated
  have keeps : walked.Keeps .expression evaluated := (related.operands.evaluate value).of_value valued
  have same : before.scopes = evaluated.scopes := by
    cases duplicated
    rfl
  have still : place.Loads before := by
    apply loads.evolve evolved.evolves _ evolved.orderly.balanced
    · exact fun _ member => Multiset.mem_add.mpr (Or.inl member)
    · rw [same]
      exact keeps.bound
  obtain ⟨previous, loaded⟩ := still
  exact ⟨previous, _, _, by rw [Place.store, loaded]⟩

/-- An assignment gives a value if its store succeeds. -/
theorem assign_ends {target value : ExpressionId} {start walked evaluated before : State}
    {place : Place} {stored copied previous : Address} {scopes : Scopes} {heap : Heap}
    (targeted : operands.target target start = .value place walked)
    (valued : operands.evaluate value walked = .value stored evaluated)
    (duplicated : copy stored evaluated = .value copied before)
    (written : place.store before.scopes before.heap stored = (.ok previous, scopes, heap)) :
    ∃ last, assign operands target value start = .value copied last := by
  have storing := storeIn_of_store written
  simp only [assign, bind_run, targeted, holding, ensuring, valued, duplicated, guarding, storing]
  exact ⟨_, rfl⟩

end Evaluation

namespace Session

variable {session : Session}

/-- An assignment whose target and value were both evaluated does not fail, at no
moment of any request and with whatever the host has lent.  In the walk to a target
each place that is come to can be loaded, and what is located for reading is read. -/
theorem Runs.stores_succeed {program : Program} {builtins : BuiltinTable} {sink : Sink}
    {limit : Option Nat} (lawful : builtins.Lawful) {requests : List (Nat × Request)}
    (runs : Runs (start program builtins sink limit) requests session) {fuel : Nat}
    {request : Request} {moment : State} (visits : session.Visits fuel request moment) (fuel : Nat) :
    (∀ {target value : ExpressionId} {place : Place} {walked evaluated : State} {stored : Address},
      (Nested.withFuel session.interpreter.setup fuel).target target moment =
        .value place walked →
      (Nested.withFuel session.interpreter.setup fuel).evaluate value walked =
        .value stored evaluated →
      ∃ copied before previous scopes heap last,
        copy stored evaluated = .value copied before ∧
        place.store before.scopes before.heap stored = (.ok previous, scopes, heap) ∧
        assign (Nested.withFuel session.interpreter.setup fuel).toOperands target value moment =
          .value copied last) ∧
    (∀ {base : ExpressionId} {earlier later : List ExpressionId} {place next : Place}
      {walked reached : State},
      (Nested.withFuel session.interpreter.setup fuel).target base moment = .value place walked →
      placeChain session.interpreter.setup
        (Nested.withFuel session.interpreter.setup fuel).toOperands place earlier walked =
          .value next reached →
      (∃ address, next.load reached.scopes reached.heap = .ok address) ∧
        indexedPlace session.interpreter.setup
          (Nested.withFuel session.interpreter.setup fuel).toOperands base (earlier ++ later) moment =
          placeChain session.interpreter.setup
            (Nested.withFuel session.interpreter.setup fuel).toOperands next later reached) ∧
    ∀ {container key : Address} {place : Place} (scopes : Scopes),
      (moment.heap.locate container key .read).1 = .ok place →
      ∃ value, place.load scopes moment.heap = .ok value ∧
        moment.heap.valueAt container key = .ok value := by
  have upholds := runs.upholds Ledger.Orderly.hosted (by simp)
    (start_upholds lawful Ledger.Orderly.blank)
  obtain ⟨hand, orderly⟩ := upholds.visited Ledger.Orderly.hosted (by simp) visits
  have lasting := @Ledger.Orderly.step ⟨True, True⟩
  refine ⟨?_, ?_, ?_⟩
  · intro target value place walked evaluated stored targeted valued
    have duplicated : copy stored evaluated = .value _ _ := rfl
    obtain ⟨previous, scopes, heap, written⟩ :=
      @storeIn_ends ⟨True, True⟩ _ upholds.lawful.abides _ _ _ _ _ _ _ _ _ _ _ orderly targeted
        valued duplicated
    obtain ⟨last, assigned⟩ := assign_ends targeted valued duplicated written
    exact ⟨_, _, previous, scopes, heap, last, duplicated, written, assigned⟩
  · intro base earlier later place next walked reached targeted walks
    have sound := (Nested.withFuel_sound lasting upholds.lawful.abides fuel).operands
      moment.calls.depth
    have standing := @standing_of_target ⟨True, True⟩ _ upholds.lawful.abides _ _ _ _ _ _ orderly
      targeted
    have chain := @placeChain_standing ⟨True, True⟩ _ session.interpreter.setup _ _ lasting
      (fun orderly => orderly.balanced) sound earlier place hand
    refine ⟨(chain.of_value standing walks).2, ?_⟩
    rw [indexedPlace, bind_run, targeted]
    show placeChain _ _ place (earlier ++ later) walked = _
    rw [placeChain_append, bind_run, walks]
  · intro container key place scopes located
    exact Heap.valueAt_of_locate located scopes

/-- A function that binds a global to a copy of its argument, and the expressions of
an assignment to an element of that global whose value is another assignment to it. -/
def rebinding : Program where
  expressions :=
    #[⟨.literal (.int 0), .empty⟩, ⟨.reference ⟨0⟩, .empty⟩, ⟨.reference ⟨1⟩, .empty⟩,
      ⟨.assign ⟨1⟩ ⟨2⟩, .empty⟩, ⟨.index ⟨1⟩ [⟨0⟩], .empty⟩, ⟨.assign ⟨1⟩ ⟨0⟩, .empty⟩]
  statements := #[⟨.declare ⟨0⟩ (some ⟨0⟩), .empty⟩, ⟨.expression ⟨3⟩, .empty⟩]
  functions := #[⟨.empty, [⟨⟨1⟩, .vector .int⟩], .none, ⟨[⟨1⟩], .empty⟩, .empty⟩]

/-- The element is stored although nothing is bound to its vector any more. -/
theorem Runs.stores_succeed_rebinding :
    ∃ first second middle session place walked stored evaluated copied last,
      (start rebinding .standard .silent none).step 9 (.run [⟨0⟩]) = .ok (first, middle) ∧
      middle.step 9 (.call ⟨0⟩ [.vector .int [.scalar (.int 1)]] none) = .ok (second, session) ∧
      (Nested.withFuel session.interpreter.setup 9).target ⟨4⟩ session.state =
        .value place walked ∧
      (Nested.withFuel session.interpreter.setup 9).evaluate ⟨5⟩ walked =
        .value stored evaluated ∧
      assign (Nested.withFuel session.interpreter.setup 9).toOperands ⟨4⟩ ⟨5⟩ session.state =
        .value copied last := by
  have ran : ((start rebinding .standard .silent none).step 9 (.run [⟨0⟩])).toOption.any
      (fun declared => (declared.2.step 9
        (.call ⟨0⟩ [.vector .int [.scalar (.int 1)]] none)).toOption.any fun called =>
          match (Nested.withFuel called.2.interpreter.setup 9).target ⟨4⟩ called.2.state with
          | .value _ walked =>
              match (Nested.withFuel called.2.interpreter.setup 9).evaluate ⟨5⟩ walked with
              | .value _ _ => true
              | _ => false
          | _ => false) = true := by
    decide +kernel
  obtain ⟨first, middle, declared, ran⟩ := exists_step_of_any ran
  obtain ⟨second, session, called, ran⟩ := exists_step_of_any ran
  have runs := Runs.cons declared (.cons called (.nil session))
  have visits := session.visits_start 8 ⟨0⟩
  obtain ⟨succeeds, _, _⟩ := Runs.stores_succeed BuiltinTable.standard_lawful runs visits 9
  split at ran
  · rename_i place walked targeted
    split at ran
    · rename_i stored evaluated valued
      obtain ⟨copied, _, _, _, _, last, _, _, assigned⟩ := succeeds targeted valued
      exact ⟨first, second, middle, session, place, walked, stored, evaluated, copied, last, declared,
        called, targeted, valued, assigned⟩
    · simp at ran
  · simp at ran

end Session

end ScriptEngine
