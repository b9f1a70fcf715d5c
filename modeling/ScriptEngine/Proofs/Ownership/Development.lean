import ScriptEngine.Proofs.Custody.Walks
import ScriptEngine.Proofs.Ownership.Evolution

/-!
# Development of heaps

Every object is of the kind that its type says, however it has come about, and
stays so.  Everything that changes a heap counts handles or slots, reclaims
objects, puts another object into a slot, adds an entry to a dict, or makes new
objects, and a heap that develops has been changed in no other way.
-/

namespace ScriptEngine

/-- A payload of the kind that a type says; there are no values of type `args`,
and `none` stands for them. -/
def StaticType.Suits (type : StaticType) (payload : Payload) : Prop :=
  type.kind = payload.kind ∨ type.kind = .args ∧ payload = .scalar .none

namespace StaticType.Suits

variable {type : StaticType} {payload later : Payload}

theorem evolves (suits : type.Suits payload) (evolves : payload.Evolves later) :
    type.Suits later := by
  cases evolves with
  | scalar value => exact suits
  | vector length =>
      rcases suits with same | ⟨_, blank⟩
      · exact Or.inl same
      · cases blank
  | dict grown =>
      rcases suits with same | ⟨_, blank⟩
      · exact Or.inl same
      · cases blank

theorem scalar (value : Scalar) : value.type.Suits (.scalar value) :=
  Or.inl rfl

/-- What a variable starts with. -/
theorem default (type : StaticType) :
    type.Suits
      (match Scalar.default? type.kind with
        | some value => .scalar value
        | Option.none => if type.kind = .dict then .dict [] else .vector []) := by
  obtain ⟨kind, parameters, isConst⟩ := type
  cases kind with
  | args => exact Or.inr ⟨rfl, rfl⟩
  | _ => exact Or.inl rfl

end StaticType.Suits

namespace Tree

mutual

/-- The type at every position suits what is there. -/
def Suited : Tree → Prop
  | .scalar type value => type.Suits (.scalar value)
  | .vector type elements => type.kind = .vector ∧ SuitedAll elements
  | .dict type entries => type.kind = .dict ∧ SuitedEntries entries

def SuitedAll : List Tree → Prop
  | [] => True
  | tree :: others => tree.Suited ∧ SuitedAll others

def SuitedEntries : List (Tree × Tree) → Prop
  | [] => True
  | (key, value) :: others => key.Suited ∧ value.Suited ∧ SuitedEntries others

end

theorem suitedAll_map {view : Address → Tree} (suited : ∀ address, (view address).Suited)
    (addresses : List Address) : SuitedAll (addresses.map view) := by
  induction addresses with
  | nil => trivial
  | cons address others induction => exact ⟨suited address, induction⟩

theorem suitedEntries_map {view : Address → Tree} (suited : ∀ address, (view address).Suited)
    (entries : List (Address × Address)) :
    SuitedEntries (entries.map fun entry => (view entry.1, view entry.2)) := by
  induction entries with
  | nil => trivial
  | cons entry others induction => exact ⟨suited entry.1, suited entry.2, induction⟩

end Tree

namespace Heap

/-- Every object has a payload of the kind that its type says. -/
def Kinded (heap : Heap) : Prop :=
  ∀ address payload, heap.payload? address = some payload → (heap.type address).Suits payload

variable {heap before middle after : Heap} {address : Address} {payload later : Payload}
  {type : StaticType}

namespace Kinded

theorem remains (kinded : before.Kinded) (remains : Remains before after) : after.Kinded := by
  intro address payload found
  rw [remains.type found]
  exact kinded address payload (remains.payload found)

theorem allocate (kinded : heap.Kinded) (suits : type.Suits payload) :
    (heap.allocate type payload).2.Kinded := by
  intro address content found
  rw [payload?, get?_allocate] at found
  rw [Heap.type, get?_allocate]
  by_cases last : address = heap.cells.size
  · rw [if_pos last] at found ⊢
    cases found
    exact suits
  · rw [if_neg last] at found ⊢
    exact kinded address content found

/-- Objects evolve, and nothing is new. -/
theorem evolves (kinded : before.Kinded) (evolves : before.Evolves after)
    (old : after.cells.size = before.cells.size) : after.Kinded := by
  intro address payload found
  have small : address < before.cells.size := old ▸ lt_size_of_payload? found
  obtain ⟨earlier, past, changed⟩ := evolves.payload small found
  rw [evolves.type small found]
  exact (kinded address earlier past).evolves changed

theorem treeWithin (kinded : heap.Kinded) (depth : Nat) (address : Address) :
    (heap.treeWithin depth address).Suited := by
  induction depth generalizing address with
  | zero => exact .scalar .none
  | succ depth induction =>
      rw [Heap.treeWithin]
      split
      · exact .scalar .none
      · rename_i object found
        have suits : object.type.Suits object.payload := by
          have suits := kinded address _ (payload?_of_get? found)
          rwa [Heap.type, found] at suits
        split
        · rename_i value shape
          rwa [shape] at suits
        · rename_i elements shape
          rw [shape] at suits
          rcases suits with same | ⟨_, blank⟩
          · exact ⟨same, Tree.suitedAll_map induction elements⟩
          · cases blank
        · rename_i entries shape
          rw [shape] at suits
          rcases suits with same | ⟨_, blank⟩
          · exact ⟨same, Tree.suitedEntries_map induction entries⟩
          · cases blank

mutual

theorem build : (tree : Tree) → tree.Suited → ∀ {heap : Heap}, heap.Kinded →
    (heap.build tree).2.Kinded
  | .scalar _ _, suited, _, kinded => kinded.allocate suited
  | .vector _ elements, suited, _, kinded => by
      have parts := buildAll elements suited.2 kinded
      exact (parts.remains (.enterSlots _ _)).allocate (Or.inl suited.1)
  | .dict _ entries, suited, _, kinded => by
      have parts := buildEntries entries suited.2 kinded
      exact (parts.remains (.enterSlots _ _)).allocate (Or.inl suited.1)

theorem buildAll : (trees : List Tree) → Tree.SuitedAll trees → ∀ {heap : Heap}, heap.Kinded →
    (heap.buildAll trees).2.Kinded
  | [], _, _, kinded => kinded
  | tree :: others, suited, _, kinded => buildAll others suited.2 (build tree suited.1 kinded)

theorem buildEntries : (entries : List (Tree × Tree)) → Tree.SuitedEntries entries →
    ∀ {heap : Heap}, heap.Kinded → (heap.buildEntries entries).2.Kinded
  | [], _, _, kinded => kinded
  | (key, value) :: others, suited, _, kinded =>
      buildEntries others suited.2.2 (build value suited.2.1 (build key suited.1 kinded))

end

theorem copy (kinded : heap.Kinded) (address : Address) : (heap.copy address).2.Kinded :=
  build _ (kinded.treeWithin _ address) kinded

end Kinded

/-- Whatever runs make is of the kind that its type says. -/
theorem Fashioned.kinded {given made : Multiset Address}
    (fashioned : Fashioned before given after made) (kinded : before.Kinded) : after.Kinded := by
  induction fashioned with
  | refl heap given => exact kinded
  | trans _ _ first second => exact second (first kinded)
  | frame others _ induction => exact induction kinded
  | newScalar heap value => exact kinded.allocate (.scalar value)
  | newDefault heap type => exact kinded.allocate (.default type.mutable)
  | newVector heap element elements =>
      exact (kinded.remains (.enterSlots heap elements)).allocate (Or.inl rfl)
  | newDict heap key value pairs =>
      exact (kinded.remains (.insertPairs heap [] pairs)).allocate (Or.inl rfl)
  | copy heap address => exact kinded.copy address
  | releaseAll heap addresses => exact kinded.remains (.releaseAll heap addresses)

/-! ## Development -/

/-- Objects evolve, and types still suit payloads if they did and what is made
is made with care. -/
structure Develops (careless : Prop) (before after : Heap) : Prop where
  evolves : before.Evolves after
  kinded : ¬careless → before.Kinded → after.Kinded

variable {careless : Prop} {given made : Multiset Address}

theorem Remains.develops (remains : Remains before after) : before.Develops careless after :=
  ⟨remains.evolves, fun _ kinded => kinded.remains remains⟩

theorem Makes.develops (makes : Makes careless before given after made) :
    before.Develops careless after :=
  ⟨makes.crafted.survives.evolves, fun careful => (makes.fashioned.resolve_left careful).kinded⟩

theorem Fashioned.develops (fashioned : Fashioned before given after made) :
    before.Develops careless after :=
  fashioned.makes.develops

namespace Develops

theorem refl (heap : Heap) : heap.Develops careless heap :=
  (Remains.refl heap).develops

theorem trans (first : before.Develops careless middle) (second : middle.Develops careless after) :
    before.Develops careless after :=
  ⟨first.evolves.trans second.evolves, fun careful kinded =>
    second.kinded careful (first.kinded careful kinded)⟩

theorem allocate (heap : Heap) (suits : type.Suits payload) :
    heap.Develops careless (heap.allocate type payload).2 :=
  ⟨(Survives.allocate heap type payload).evolves, fun _ kinded => kinded.allocate suits⟩

/-- One object evolves. -/
theorem replaces (replaces : before.Replaces after address later)
    (found : before.payload? address = some payload) (changed : payload.Evolves later) :
    before.Develops careless after := by
  have evolves : before.Evolves after := .replaces replaces found changed
  exact ⟨evolves, fun _ kinded => kinded.evolves evolves replaces.cells⟩

theorem createEntry {dict key : Address} {entries : List (Address × Address)}
    (found : heap.payload? dict = some (.dict entries)) :
    heap.Develops careless (heap.createEntry dict key entries) := by
  have made := Fashioned.newDefault heap ((heap.type dict).parameter 1)
  obtain ⟨still, written⟩ := createEntry_replaces key found
  exact made.develops.trans (.replaces written still (.dict (by simp)))

/-- Some objects are gone, and the others are as they were. -/
theorem remove (size : after.cells.size = before.cells.size)
    (spared : ∀ address object, after.get? address = some object →
      before.get? address = some object) : before.Develops careless after := by
  have payloads : ∀ {address payload}, after.payload? address = some payload →
      before.payload? address = some payload ∧ after.type address = before.type address := by
    intro address payload found
    obtain ⟨object, alive, rfl⟩ := payload?_eq_some_iff.mp found
    have earlier := spared address object alive
    exact ⟨payload?_of_get? earlier, by rw [Heap.type, Heap.type, alive, earlier]⟩
  have evolves : before.Evolves after :=
    ⟨size.ge, fun _ found => ⟨_, (payloads found).1, .refl _⟩, fun _ found => (payloads found).2⟩
  exact ⟨evolves, fun _ kinded => kinded.evolves evolves size⟩

theorem sweep (heap : Heap) : heap.Develops careless heap.sweep.2 := by
  apply remove
  · simp [Heap.sweep]
  · intro address object found
    simp only [Heap.sweep, get?, Array.getElem?_map] at found ⊢
    cases cell : heap.cells[address]? with
    | none => simp [cell] at found
    | some content =>
        cases content with
        | none => simp [cell] at found
        | some object' =>
            simp only [cell, Option.map_some, Option.join_some, Option.filter_eq_some_iff] at found
            exact found.1

/-! ## Single operations -/

theorem readElement (heap : Heap) (container key : Address) :
    heap.Develops careless (heap.readElement container key).2 := by
  unfold Heap.readElement
  split
  · exact (Remains.release heap key).develops
  · rename_i value _
    exact ((Remains.retain heap value).trans (.release _ key)).develops

theorem locate (heap : Heap) (container key : Address) (access : Access) :
    heap.Develops careless (heap.locate container key access).2 := by
  have left : heap.Develops careless (heap.release key) := (Remains.release heap key).develops
  unfold Heap.locate
  split
  · exact left
  · exact left.trans (Remains.retain _ container).develops
  · exact left.trans (Remains.retain _ container).develops
  · rename_i absent
    cases access with
    | read => exact left
    | write =>
        exact (createEntry (dict_of_absent absent).1).trans (Remains.retain _ container).develops

theorem store (place : Place) (scopes : Scopes) (heap : Heap) (value : Address) :
    heap.Develops careless (place.store scopes heap value).2.2 := by
  have entered : heap.Develops careless (heap.enterSlot value) :=
    (Remains.enterSlot heap value).develops
  unfold Place.store
  split
  · exact .refl heap
  · rename_i previous loaded
    refine Develops.trans ?_ (Remains.leaveSlot _ previous).develops
    cases Place.leads_of_load loaded with
    | binding same found =>
        rw [same]
        exact entered
    | inside replaced only alive offered refills pointed =>
        have found := (payload?_enterSlot heap value _).trans (payload?_of_get? alive)
        obtain ⟨object, alive', same⟩ := payload?_eq_some_iff.mp found
        rw [pointed scopes _ value found]
        refine entered.trans (.replaces ?_ found (refills value).evolves)
        exact @replaces_setPayload _ _ _ [] [] object alive'

theorem next? (items : Items) (heap : Heap) : heap.Develops careless (items.next? heap).2 := by
  cases items with
  | integers next stop =>
      simp only [Items.next?]
      split
      · exact (Fashioned.newScalar heap (.int next)).develops
      · exact .refl heap
  | elements source position =>
      simp only [Items.next?]
      split
      · rename_i element _
        exact (Fashioned.copy heap element).develops
      · exact .refl heap
  | entries source position pairType =>
      simp only [Items.next?]
      split
      · rename_i entry _
        exact ((Fashioned.copy heap entry.1).develops.trans
          (Fashioned.copy _ entry.2).develops).trans (Fashioned.newVector _ pairType _).develops
      · exact .refl heap

theorem declare (scopes : Scopes) (heap : Heap) (name : Name) (value : Address) :
    heap.Develops careless (scopes.declare heap name value).2 :=
  (Remains.declare scopes heap name value).develops

theorem pop (scopes : Scopes) (heap : Heap) : heap.Develops careless (scopes.pop heap).2 :=
  (Remains.pop scopes heap).develops

theorem discard (frame : CallFrame) (heap : Heap) : heap.Develops careless (frame.discard heap) := by
  unfold CallFrame.discard
  split
  · rename_i value _
    exact ((Remains.setPinned heap value false).trans (.release _ value)).develops
  · exact .refl heap

theorem setResult (frame : CallFrame) (heap : Heap) (value : Address) :
    heap.Develops careless (frame.setResult heap value).2 := by
  have pinned := Remains.setPinned heap value true
  unfold CallFrame.setResult
  split
  · rename_i previous _
    exact ((pinned.trans (.setPinned _ previous false)).trans (.release _ previous)).develops
  · exact pinned.develops

theorem takeResult (frame : CallFrame) (heap : Heap) :
    heap.Develops careless (frame.takeResult heap).2.2 := by
  unfold CallFrame.takeResult
  split
  · rename_i value _
    exact (Remains.setPinned heap value false).develops
  · exact .refl heap

/-! ## Described values -/

mutual

theorem describe (holdings : Holdings) : (description : Description) → ∀ heap : Heap,
    heap.Develops careless (description.allocate holdings heap).2
  | .scalar value, heap => (Fashioned.newScalar heap value).develops
  | .vector element elements, heap =>
      (describeAll holdings elements heap).trans (Fashioned.newVector _ element _).develops
  | .dict key value entries, heap =>
      (describeEntries holdings entries heap).trans (Fashioned.newDict _ key value _).develops
  | .default type, heap => (Fashioned.newDefault heap type).develops
  | .held name, heap => by
      simp only [Description.allocate]
      split
      · rename_i address _
        exact (Remains.retain heap address).develops
      · exact (Fashioned.newScalar heap .none).develops

theorem describeAll (holdings : Holdings) : (descriptions : List Description) → ∀ heap : Heap,
    heap.Develops careless (Description.allocateAll holdings heap descriptions).2
  | [], heap => .refl heap
  | description :: others, heap =>
      (describe holdings description heap).trans (describeAll holdings others _)

theorem describeEntries (holdings : Holdings) : (entries : List (Description × Description)) →
    ∀ heap : Heap, heap.Develops careless (Description.allocateEntries holdings heap entries).2
  | [], heap => .refl heap
  | (key, value) :: others, heap =>
      ((describe holdings key heap).trans (describe holdings value _)).trans
        (describeEntries holdings others _)

end

end Develops

/-! ## Slots -/

/-- There is an element or an entry at a position of an object. -/
def HasSlot (heap : Heap) (container position : Nat) : Prop :=
  (heap.element? container position).isSome ∨ (heap.entry? container position).isSome

/-- A slot is there as long as the object that it belongs to. -/
theorem Evolves.hasSlot (evolves : before.Evolves after) {position : Nat}
    (slot : before.HasSlot address position) (alive : after.payload? address = some payload) :
    after.HasSlot address position := by
  rcases slot with present | present
  · obtain ⟨element, stored⟩ := Option.isSome_iff_exists.mp present
    rw [element?] at stored
    split at stored
    · rename_i elements found
      obtain ⟨later, same, length⟩ := evolves.vector found alive
      have inside := (List.getElem?_eq_some_iff.mp stored).1
      left
      rw [element?, alive, same]
      simpa [length] using inside
    · simp at stored
  · obtain ⟨entry, stored⟩ := Option.isSome_iff_exists.mp present
    rw [ entry?, entries] at stored
    split at stored
    · rename_i entries found
      obtain ⟨later, same, grown⟩ := evolves.dict found alive
      have inside := (List.getElem?_eq_some_iff.mp stored).1
      have longer := grown.length_le
      rw [List.length_map, List.length_map] at longer
      right
      rw [ entry?, Heap.entries, alive, same]
      simpa using inside.trans_le longer
    · simp at stored

end Heap

end ScriptEngine
