import ScriptEngine.Proofs.Accounting.Crafting
import ScriptEngine.Proofs.Accounting.Scopes
import ScriptEngine.Heap.Dict
import ScriptEngine.Interpreter.State

/-!
# Ledgers

A ledger shows what a run refers to at one moment: the heap, the bindings,
the results that calls keep, the cached literals, and the handles at hand.
The handles at hand are owned, like those on newly computed values, or
shared with what is stored elsewhere.  `Ledger.Step` lists every way in which
a run changes its ledger; a property that each of the steps keeps holds
throughout every run.
-/

namespace ScriptEngine

/-- The handles that the evaluation of a node has at hand. -/
structure Hand where
  owned : Multiset Address
  shared : Multiset Address

namespace Hand

def empty : Hand := ⟨0, 0⟩

def own (address : Address) (hand : Hand) : Hand :=
  { hand with owned := address ::ₘ hand.owned }

def ownAll (addresses : List Address) (hand : Hand) : Hand :=
  { hand with owned := addresses + hand.owned }

def share (address : Address) (hand : Hand) : Hand :=
  { hand with shared := address ::ₘ hand.shared }

def shareAll (addresses : List Address) (hand : Hand) : Hand :=
  { hand with shared := addresses + hand.shared }

@[simp] theorem ownAll_nil (hand : Hand) : hand.ownAll [] = hand := by
  simp [ownAll]

@[simp] theorem ownAll_cons (address : Address) (others : List Address) (hand : Hand) :
    hand.ownAll (address :: others) = (hand.ownAll others).own address := by
  simp [ownAll, own, ← Multiset.cons_coe]

@[simp] theorem shareAll_nil (hand : Hand) : hand.shareAll [] = hand := by
  simp [shareAll]

@[simp] theorem shareAll_cons (address : Address) (others : List Address) (hand : Hand) :
    hand.shareAll (address :: others) = (hand.shareAll others).share address := by
  simp [shareAll, share, ← Multiset.cons_coe]

theorem own_own (first second : Address) (hand : Hand) :
    (hand.own first).own second = (hand.own second).own first := by
  simp [own, Multiset.cons_swap]

theorem share_own (first second : Address) (hand : Hand) :
    (hand.own first).share second = (hand.share second).own first := rfl

theorem share_share (first second : Address) (hand : Hand) :
    (hand.share first).share second = (hand.share second).share first := by
  simp [share, Multiset.cons_swap]

/-- One more handle, which is owned unless it is lent. -/
def carry (lent : Bool) (address : Address) (hand : Hand) : Hand :=
  if lent then hand.share address else hand.own address

def carryAll (lent : Bool) (addresses : List Address) (hand : Hand) : Hand :=
  if lent then hand.shareAll addresses else hand.ownAll addresses

@[simp] theorem carry_true (address : Address) (hand : Hand) :
    hand.carry true address = hand.share address := rfl

@[simp] theorem carry_false (address : Address) (hand : Hand) :
    hand.carry false address = hand.own address := rfl

@[simp] theorem carryAll_true (addresses : List Address) (hand : Hand) :
    hand.carryAll true addresses = hand.shareAll addresses := rfl

@[simp] theorem carryAll_false (addresses : List Address) (hand : Hand) :
    hand.carryAll false addresses = hand.ownAll addresses := rfl

@[simp] theorem carryAll_nil (lent : Bool) (hand : Hand) : hand.carryAll lent [] = hand := by
  cases lent with
  | false => exact hand.ownAll_nil
  | true => exact hand.shareAll_nil

theorem carryAll_cons (lent : Bool) (address : Address) (others : List Address)
    (hand : Hand) :
    hand.carryAll lent (address :: others) = (hand.carryAll lent others).carry lent address := by
  cases lent with
  | false => exact hand.ownAll_cons address others
  | true => exact hand.shareAll_cons address others

end Hand

/-- Whether slots can hold other objects. -/
def Payload.IsContainer : Payload → Prop
  | .scalar _ => False
  | .vector _ => True
  | .dict _ => True

/-- What indices lead to in a payload, which is no key. -/
def Payload.offers : Payload → List Address
  | .scalar _ => []
  | .vector elements => elements
  | .dict entries => entries.map Prod.snd

theorem Payload.mem_children_of_mem_offers {payload : Payload} {address : Address}
    (offered : address ∈ payload.offers) : address ∈ payload.children := by
  cases payload with
  | scalar value => simp [offers] at offered
  | vector elements => exact offered
  | dict entries =>
      obtain ⟨entry, member, rfl⟩ := List.mem_map.mp offered
      exact List.mem_flatMap.mpr ⟨entry, member, by simp⟩

/-- How an assignment changes a container: an object takes the place of another
one, which is no key. -/
inductive Payload.Refills : Payload → Payload → List Address → List Address → Prop where
  | element {elements : List Address} {position : Nat} {previous : Address} (value : Address) :
      elements[position]? = some previous →
      Refills (.vector elements) (.vector (elements.set position value)) [value] [previous]
  | value {entries : List (Address × Address)} {position : Nat} {entry : Address × Address}
      (value : Address) :
      entries[position]? = some entry →
      Refills (.dict entries) (.dict (Heap.setEntry entries position value)) [value] [entry.2]

/-- What is counted in the slots of a container before and after. -/
theorem Payload.Refills.exchange {before after : Payload} {added removed : List Address}
    (refills : before.Refills after added removed) :
    before.IsContainer ∧ after.IsContainer ∧
      (removed : Multiset Address) + after.children = added + before.children := by
  cases refills with
  | element value stored =>
      refine ⟨trivial, trivial, ?_⟩
      simpa using Heap.children_set stored value
  | value value stored =>
      refine ⟨trivial, trivial, ?_⟩
      simpa using Heap.children_setEntry stored value

/-- One of the given objects, or an object in a slot of one of them. -/
def Heap.Within (heap : Heap) (address : Address) (roots : Multiset Address) : Prop :=
  address ∈ roots ∨
    ∃ container ∈ roots, ∃ object,
      heap.get? container = some object ∧ address ∈ object.payload.children

namespace Heap

/-- What may be made of a heap and of handles that are given. -/
structure Makes (careless : Prop) (before : Heap) (given : Multiset Address) (after : Heap)
    (made : Multiset Address) : Prop where
  crafted : Crafted before given after made
  fashioned : careless ∨ Fashioned before given after made

theorem Fashioned.makes {careless : Prop} {before after : Heap} {given made : Multiset Address}
    (fashioned : Fashioned before given after made) : Makes careless before given after made :=
  ⟨fashioned.crafted, Or.inr fashioned⟩

variable {heap : Heap} {container value : Address} {position : Nat}

theorem offered_of_element? (found : heap.element? container position = some value) :
    ∃ object, heap.get? container = some object ∧ value ∈ object.payload.offers := by
  unfold element? at found
  split at found
  · rename_i elements payload
    obtain ⟨object, alive, same⟩ := payload?_eq_some_iff.mp payload
    exact ⟨object, alive, by rw [same]; exact List.mem_of_getElem? found⟩
  · simp at found

theorem offered_of_entry? {entry : Address × Address}
    (found : heap.entry? container position = some entry) :
    ∃ object, heap.get? container = some object ∧ entry.2 ∈ object.payload.offers := by
  unfold entry? entries at found
  split at found
  · rename_i pairs payload
    obtain ⟨object, alive, same⟩ := payload?_eq_some_iff.mp payload
    refine ⟨object, alive, ?_⟩
    rw [same, Payload.offers]
    exact List.mem_map_of_mem (List.mem_of_getElem? found)
  · simp at found

end Heap

structure Ledger extends Hand where
  heap : Heap
  scopes : Scopes
  /-- The results that calls keep until their callers take them. -/
  results : Multiset Address
  literals : Multiset Address
  /-- The greatest number of active calls, which no step changes. -/
  limit : Option Nat

/-- What the surroundings of a run may do. -/
structure Licence where
  /-- Lent handles may be bound to names. -/
  lends : Prop
  /-- Built-in functions may make dicts in ways of their own. -/
  careless : Prop

namespace Ledger

/-- An object that a walk through stored data comes across. -/
def Shows (ledger : Ledger) (address : Address) : Prop :=
  address ∈ ledger.scopes.bound ∨ address ∈ ledger.shared ∨
    ∃ container ∈ ledger.shared, ∃ object,
      ledger.heap.get? container = some object ∧ address ∈ object.payload.offers

/-- Slots of a container that is walked to are filled with other objects. -/
inductive Amends : Ledger → Ledger → Prop where
  | intro {ledger : Ledger} {container : Address} {object : Object} {payload : Payload}
      {added removed : List Address} {owned : Multiset Address} :
      container ∈ ledger.shared →
      ledger.heap.get? container = some object →
      object.payload.IsContainer → payload.IsContainer →
      (removed : Multiset Address) + payload.children = added + object.payload.children →
      ledger.owned = added + owned →
      Amends ledger { ledger with
        heap := ((ledger.heap.enterSlots added).setPayload container payload).leaveSlots
          removed
        owned := owned
        shared := removed + ledger.shared }

/-- The steps that change a ledger. -/
inductive Step (licence : Licence) : Ledger → Ledger → Prop where
  /-- New values take over handles that are owned. -/
  | craft {ledger : Ledger} {heap : Heap} {given made owned : Multiset Address} :
      Heap.Makes licence.careless ledger.heap given heap made →
      ledger.owned = given + owned →
      Step licence ledger { ledger with heap := heap, owned := made + owned }
  /-- The object of a literal, kept and handed out. -/
  | cache {ledger : Ledger} (value : Scalar) :
      Step licence ledger { ledger with
        heap := (ledger.heap.newScalar value).2.retain (ledger.heap.newScalar value).1
        literals := (ledger.heap.newScalar value).1 ::ₘ ledger.literals
        owned := (ledger.heap.newScalar value).1 ::ₘ ledger.owned }
  /-- Another handle on a scalar, which nothing can change. -/
  | duplicate {ledger : Ledger} {address : Address} :
      (∃ value, ledger.heap.scalar? address = some value) ∨ address ∈ ledger.literals →
      Step licence ledger { ledger with
        heap := ledger.heap.retain address
        owned := address ::ₘ ledger.owned }
  | share {ledger : Ledger} {address : Address} :
      ledger.Shows address →
      Step licence ledger { ledger with
        heap := ledger.heap.retain address
        shared := address ::ₘ ledger.shared }
  /-- An owned handle treated like one on stored data. -/
  | lower {ledger : Ledger} {address : Address} {owned : Multiset Address} :
      ledger.owned = address ::ₘ owned →
      Step licence ledger { ledger with
        owned := owned
        shared := address ::ₘ ledger.shared }
  | giveBack {ledger : Ledger} {address : Address} {shared : Multiset Address} :
      ledger.shared = address ::ₘ shared →
      Step licence ledger { ledger with
        heap := ledger.heap.release address
        shared := shared }
  | bind {ledger : Ledger} {hand : Hand} {lent : Bool} {position : Nat} {name : Name}
      {value : Address} {previous? : Option Address} :
      position < ledger.scopes.depth →
      ledger.scopes.get? position name = previous? →
      ledger.toHand = hand.carry lent value →
      (lent = true → licence.lends) →
      Step licence ledger { ledger with
        heap := (ledger.heap.enterSlot value).leaveSlots previous?.toList
        scopes := ledger.scopes.modifyFrame position (·.put name value)
        toHand := hand.shareAll previous?.toList }
  | push {ledger : Ledger} :
      Step licence ledger { ledger with scopes := ledger.scopes.push }
  | pop {ledger : Ledger} {frame : ScopeFrame} :
      ledger.scopes.nested.back? = some frame →
      Step licence ledger { ledger with
        heap := ledger.heap.leaveSlots frame.values
        scopes := ledger.scopes.dropFrame
        shared := frame.values + ledger.shared }
  | skip {ledger : Ledger} (depth : Nat) :
      Step licence ledger { ledger with scopes := ledger.scopes.skipFrom depth }
  /-- A container that is walked to holds another object in a slot. -/
  | amend {ledger : Ledger} {container : Address} {object : Object} {payload : Payload}
      {added removed : List Address} {owned : Multiset Address} :
      container ∈ ledger.shared →
      ledger.heap.get? container = some object →
      object.payload.Refills payload added removed →
      ledger.owned = added + owned →
      Step licence ledger { ledger with
        heap := ((ledger.heap.enterSlots added).setPayload container payload).leaveSlots
          removed
        owned := owned
        shared := removed + ledger.shared }
  /-- A dict that is walked to gets an entry for a key that it does not have. -/
  | extend {ledger : Ledger} {dict key : Address} {entries : List (Address × Address)}
      {owned : Multiset Address} :
      dict ∈ ledger.shared →
      ledger.heap.payload? dict = some (.dict entries) →
      ledger.heap.findEntry? entries key = none →
      ledger.owned = key ::ₘ owned →
      Step licence ledger { ledger with
        heap := ledger.heap.createEntry dict key entries
        owned := owned }
  /-- A call keeps its result, pinned. -/
  | keep {ledger : Ledger} {value : Address} {owned : Multiset Address} :
      ledger.owned = value ::ₘ owned →
      Step licence ledger { ledger with
        heap := ledger.heap.setPinned value true
        results := value ::ₘ ledger.results
        owned := owned }
  | take {ledger : Ledger} {value : Address} {results : Multiset Address} :
      ledger.results = value ::ₘ results →
      Step licence ledger { ledger with
        heap := ledger.heap.setPinned value false
        results := results
        owned := value ::ₘ ledger.owned }
  /-- A built-in function hands back one of its arguments, or an element of
  one. -/
  | handBack {ledger : Ledger} {arguments : List Address} {value : Address}
      {owned : Multiset Address} :
      ledger.owned = arguments + owned →
      ledger.heap.Within value arguments →
      Step licence ledger { ledger with
        heap := (ledger.heap.retain value).releaseAll arguments
        owned := value ::ₘ owned }

/-- The ledger with a new default value that is owned. -/
def withDefault (ledger : Ledger) (type : StaticType) : Ledger :=
  { ledger with
    heap := (ledger.heap.newDefault type).2
    owned := {(ledger.heap.newDefault type).1} + ledger.owned }

/-- An object takes the place of another one. -/
theorem amends_of_refills {ledger : Ledger} {container : Address} {object : Object}
    {payload : Payload} {added removed : List Address} {owned : Multiset Address}
    (shared : container ∈ ledger.shared) (found : ledger.heap.get? container = some object)
    (refills : object.payload.Refills payload added removed)
    (given : ledger.owned = added + owned) :
    ledger.Amends { ledger with
      heap := ((ledger.heap.enterSlots added).setPayload container payload).leaveSlots removed
      owned := owned
      shared := removed + ledger.shared } := by
  obtain ⟨before, after, exchanged⟩ := refills.exchange
  exact .intro shared found before after exchanged given

/-- A new entry has a new value. -/
theorem amends_of_extends {ledger : Ledger} {dict key : Address}
    {entries : List (Address × Address)} {owned : Multiset Address}
    (shared : dict ∈ ledger.shared) (payload : ledger.heap.payload? dict = some (.dict entries))
    (given : ledger.owned = key ::ₘ owned) :
    (ledger.withDefault ((ledger.heap.type dict).parameter 1)).Amends { ledger with
      heap := ledger.heap.createEntry dict key entries
      owned := owned } := by
  obtain ⟨object, alive, same⟩ := Heap.payload?_eq_some_iff.mp payload
  have still : (ledger.heap.newDefault ((ledger.heap.type dict).parameter 1)).2.get? dict =
      some object := by
    rw [Heap.newDefault, Heap.get?_allocate_of_lt (Heap.lt_size_of_get?_eq_some alive)]
    exact alive
  rw [withDefault, Heap.createEntry]
  generalize ledger.heap.newDefault ((ledger.heap.type dict).parameter 1) = default at *
  obtain ⟨value, heap⟩ := default
  have taken : ({value} : Multiset Address) + ledger.owned =
      ([key, value] : List Address) + owned := by
    rw [given, Multiset.singleton_add, Multiset.cons_swap]
    simp [← Multiset.cons_coe]
  have exchanged : (([] : List Address) : Multiset Address) +
      (Payload.dict (entries ++ [(key, value)])).children =
        ([key, value] : List Address) + (object.payload.children : Multiset Address) := by
    rw [same, Heap.children_append, Multiset.cons_swap]
    simp [← Multiset.cons_coe]
  have amended := @Amends.intro
    { ledger with heap := heap, owned := {value} + ledger.owned } dict object
    (.dict (entries ++ [(key, value)])) [key, value] [] owned shared still
    (by rw [same]; exact trivial) trivial exchanged taken
  rw [Multiset.coe_nil, zero_add] at amended
  exact amended

/-- What every step keeps. -/
def Lasting (licence : Licence) (property : Ledger → Prop) : Prop :=
  ∀ {before after : Ledger}, Step licence before after → property before → property after

end Ledger

end ScriptEngine
