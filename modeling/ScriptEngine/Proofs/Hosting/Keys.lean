import Mathlib.Logic.Relation
import ScriptEngine.Proofs.Hosting.Sessions
import ScriptEngine.Proofs.Ownership.Sealing

/-!
# Keys throughout

Where the host passes new values alone, no two keys of a dict are ever equal.
From the moment at which a dict exists it keeps its keys, in their order and with
their contents, as long as it lives: new ones come after those that are there, and
what is assigned to a key that is there leaves all of them alone.
-/

namespace ScriptEngine

namespace Heap

variable {heap : Heap} {dict key : Address} {position : Nat}

/-! ## Storing under a key that is there -/

theorem keys_enterSlot (heap : Heap) (address dict : Address) :
    (heap.enterSlot address).keys dict = heap.keys dict :=
  keys_congr (payload?_enterSlot heap address dict)

theorem keys_leaveSlot (heap : Heap) (address dict : Address) :
    (heap.leaveSlot address).keys dict = heap.keys dict :=
  keys_congr (payload?_leaveSlot heap address dict)

/-- Pointing a slot at another object changes no keys. -/
theorem keys_point (place : Place) (scopes : Scopes) (heap : Heap) (value dict : Address) :
    (place.point scopes heap value).2.keys dict = heap.keys dict := by
  cases place with
  | binding depth name => rfl
  | element vector position =>
      simp only [Place.point]
      split
      · rename_i elements found
        by_cases same : vector = dict
        · subst same
          rw [keys, keys, entries, entries, payload?_setPayload_self found, found]
        · exact keys_congr (payload?_setPayload_of_ne same _)
      · rfl
  | entry container position =>
      simp only [Place.point]
      split
      · rename_i pairs found
        by_cases same : container = dict
        · subst same
          rw [keys_of_payload? found, keys_of_payload? (payload?_setPayload_self found _),
            map_fst_setEntry]
        · exact keys_congr (payload?_setPayload_of_ne same _)
      · rfl

theorem keys_store (place : Place) (scopes : Scopes) (heap : Heap) (value dict : Address) :
    (place.store scopes heap value).2.2.keys dict = heap.keys dict := by
  unfold Place.store
  split
  · rfl
  · rw [keys_leaveSlot, keys_point, keys_enterSlot]

end Heap

namespace Ledger

/-- Steps lead from one ledger to another, none of which binds what is lent or is
careless. -/
def Becomes : Ledger → Ledger → Prop :=
  Relation.ReflTransGen (Step ⟨False, False⟩)

variable {start ledger last : Ledger}

/-- Whatever steps are taken keep the keys of dicts. -/
theorem Sealed.becomes (sealed : ledger.Sealed) (becomes : ledger.Becomes last) :
    last.Sealed ∧ ledger.heap.KeepsKeys last.heap := by
  induction becomes with
  | refl => exact ⟨sealed, .refl _⟩
  | tail _ step induction =>
      obtain ⟨sealed, keeps⟩ := induction
      obtain ⟨sealed', keeps'⟩ := sealed.step_keepsKeys id id step
      exact ⟨sealed', keeps.trans keeps'⟩

/-- What comes of a sealed ledger. -/
structure Follows (start ledger : Ledger) : Prop where
  origin : start.Sealed
  becomes : start.Becomes ledger

theorem Sealed.follows (sealed : ledger.Sealed) : ledger.Follows ledger :=
  ⟨sealed, .refl⟩

theorem Follows.sealed (follows : start.Follows ledger) : ledger.Sealed :=
  (follows.origin.becomes follows.becomes).1

theorem Follows.keepsKeys (follows : start.Follows ledger) :
    start.heap.KeepsKeys ledger.heap :=
  (follows.origin.becomes follows.becomes).2

theorem Follows.step : Lasting ⟨false = true, False⟩ start.Follows := by
  intro before after step follows
  have same : (false = true) = False := by simp
  rw [same] at step
  exact ⟨follows.origin, follows.becomes.tail step⟩

theorem Follows.hosted : Hosted false False start.Follows :=
  ⟨Follows.step, Lasting.describing Follows.step,
    fun follows => follows.sealed.exclusive.orderly.balanced⟩

theorem Sealed.blank {limit : Option Nat} :
    (({ calls := { limit := limit } } : State).ledger .empty).Sealed := by
  have keyless : ∀ dict, ({} : Heap).keys dict = [] := by
    intro dict
    simp [Heap.keys, Heap.entries, Heap.payload?, Heap.get?_blank]
  refine ⟨⟨Orderly.blank, ?_⟩, ?_, ?_⟩
  · intro address shape
    simp [State.ledger, Heap.stored_blank, Scopes.bound_blank]
  · intro dict
    simp [State.ledger, keyless]
  · intro dict key member
    simp [State.ledger, keyless] at member

end Ledger

namespace Session

variable {session : Session}

theorem Upholds.from_now {careless : Prop} {property : Ledger → Prop}
    (upholds : session.Upholds careless property) {other : Ledger → Prop}
    (kept : other session.ledger) : session.Upholds careless other :=
  ⟨upholds.abides, kept, upholds.idle, upholds.distinct⟩

/-- Whatever a request runs from a moment on, dicts keep their keys. -/
theorem keepsKeys_of_visits {moment later : State} {hand : Hand}
    (abides : session.interpreter.setup.builtins.Abides False)
    (sealed : (moment.ledger hand).Sealed) {fuel : Nat} {request : Request}
    (contained : request.SelfContained)
    (visits : (session.withState moment).Visits fuel request later) :
    later.heap.Keyed ∧ moment.heap.KeepsKeys later.heap := by
  have alone := (session.withState moment).errand_selfContained contained
  have opened : ∀ {code keep}, (session.withState moment).errand request = .run code keep →
      (moment.ledger hand).Follows
        (((session.withState moment).opening code).ledger
          ((session.withState moment).handed false hand code)) := by
    intro code keep asked
    rw [asked] at alone
    cases code with
    | call function arguments =>
        exact Ledger.Follows.step (.craft (Heap.Fashioned.describeAll session.held arguments alone
          moment.heap).makes (zero_add hand.owned).symm) sealed.follows
    | _ => exact sealed.follows
  by_contra never
  have sound : (Nested.watched session.interpreter.setup (· ≠ later) fuel).Sound
      (moment.ledger hand).Follows := by
    apply Nested.watched_sound Ledger.Follows.step abides
    rintro state hand' follows rfl
    exact never ⟨follows.sealed.keyed, follows.keepsKeys⟩
  exact @uninterrupted False _ (session.withState moment) false Ledger.Follows.step hand
    _ opened _ sound visits

/-- No two keys of a dict are equal, and a dict that lives on keeps its keys: from one
request to any later one, to any moment of one, and from such a moment on, whatever
is run there and whatever steps are taken.  What is stored under a key that is
there takes the position of that key. -/
theorem Runs.keys_kept {program : Program} {builtins : BuiltinTable} {sink : Sink}
    {limit : Option Nat} (abides : builtins.Abides False) {requests : List (Nat × Request)}
    (runs : Runs (start program builtins sink limit) requests session)
    (contained : ∀ entry ∈ requests, entry.2.SelfContained) :
    session.state.heap.Keyed ∧
    (∀ {more : List (Nat × Request)} {later : Session},
      (∀ entry ∈ more, entry.2.SelfContained) → Runs session more later →
        later.state.heap.Keyed ∧ session.state.heap.KeepsKeys later.state.heap) ∧
    ∀ {fuel : Nat} {request : Request} {moment : State}, request.SelfContained →
      session.Visits fuel request moment →
      moment.heap.Keyed ∧ session.state.heap.KeepsKeys moment.heap ∧
      (∀ {fuel : Nat} {request : Request} {later : State}, request.SelfContained →
        (session.withState moment).Visits fuel request later →
          later.heap.Keyed ∧ moment.heap.KeepsKeys later.heap) ∧
      (∃ hand, session.ledger.Becomes (moment.ledger hand) ∧
        ∀ {last : Ledger}, (moment.ledger hand).Becomes last →
          last.heap.Keyed ∧ moment.heap.KeepsKeys last.heap) ∧
      ∀ {dict key : Address} {entries : List (Address × Address)} {position : Nat},
        moment.heap.payload? dict = some (.dict entries) →
        moment.heap.findEntry? entries key = some position →
          (moment.heap.locate dict key .write).1 = .ok (.entry dict position) ∧
          ∀ heap scopes value, ((Place.entry dict position).store scopes heap value).2.2.keys dict =
            heap.keys dict := by
  have upholds := runs.upholds Ledger.Follows.hosted
    (fun entry member _ => contained entry member)
    (start_upholds_abiding abides Ledger.Sealed.blank.follows)
  have now := upholds.from_now upholds.ledger.sealed.follows
  refine ⟨upholds.ledger.sealed.keyed, ?_, ?_⟩
  · intro more later contained' runs'
    have follows := (runs'.upholds Ledger.Follows.hosted
      (fun entry member _ => contained' entry member) now).ledger
    exact ⟨follows.sealed.keyed, follows.keepsKeys⟩
  · intro fuel request moment nameless visits
    obtain ⟨hand, follows⟩ := now.visited Ledger.Follows.hosted (fun _ => nameless) visits
    have sealed := follows.sealed
    refine ⟨sealed.keyed, follows.keepsKeys, ?_, ⟨hand, follows.becomes, ?_⟩, ?_⟩
    · intro fuel' request' later nameless' visits'
      exact keepsKeys_of_visits upholds.abides sealed nameless' visits'
    · intro last becomes
      obtain ⟨sealed', keeps⟩ := sealed.becomes becomes
      exact ⟨sealed'.keyed, keeps⟩
    · intro dict key entries position found present
      rw [Heap.locate_of_present found present .write]
      exact ⟨rfl, fun heap scopes value => Heap.keys_store _ scopes heap value dict⟩

/-- A function that stores under a key, changes what the key was made from, and stores
under it again. -/
def rekeying : Program where
  expressions := #[⟨.literal (.int 0), .empty⟩, ⟨.reference ⟨1⟩, .empty⟩,
    ⟨.reference ⟨2⟩, .empty⟩, ⟨.index ⟨1⟩ [⟨2⟩], .empty⟩, ⟨.assign ⟨3⟩ ⟨0⟩, .empty⟩,
    ⟨.index ⟨2⟩ [⟨0⟩], .empty⟩, ⟨.literal (.int 7), .empty⟩, ⟨.assign ⟨5⟩ ⟨6⟩, .empty⟩]
  statements := #[⟨.expression ⟨4⟩, .empty⟩, ⟨.expression ⟨7⟩, .empty⟩,
    ⟨.giveBack (some ⟨1⟩), .empty⟩]
  functions := #[⟨.empty, [⟨⟨1⟩, .dict (.vector .int) .int⟩, ⟨⟨2⟩, .vector .int⟩],
    .dict (.vector .int) .int, ⟨[⟨0⟩, ⟨1⟩, ⟨0⟩, ⟨2⟩], .empty⟩, .empty⟩]

/-- The call of the function with an empty dict and a vector, which are new. -/
def rekeyingCall (name : String) : Request :=
  .call ⟨0⟩ [.dict (.vector .int) .int [], .vector .int [.scalar (.int 1)]] (some name)

theorem Runs.keys_kept_rekeying :
    ∃ first second session later,
      (start rekeying .standard .silent none).step 9 (rekeyingCall "d") = .ok (first, session) ∧
      session.step 9 (rekeyingCall "e") = .ok (second, later) ∧
      (later.held.get? "d").map (later.state.heap.render false) = some "{ [1]: 0, [7]: 0 }" ∧
      later.state.heap.Keyed ∧ session.state.heap.KeepsKeys later.state.heap ∧
      session.Visits 9 (.execute ⟨0⟩) session.state ∧
      ∃ hand, ∀ {last : Ledger}, (session.state.ledger hand).Becomes last →
        last.heap.Keyed ∧ session.state.heap.KeepsKeys last.heap := by
  have ran : ((start rekeying .standard .silent none).step 9 (rekeyingCall "d")).toOption.any
      (fun calling => (calling.2.step 9 (rekeyingCall "e")).toOption.any fun ran =>
        (ran.2.held.get? "d").map (ran.2.state.heap.render false) =
          some "{ [1]: 0, [7]: 0 }") = true := by
    decide +kernel
  obtain ⟨first, session, called, ran⟩ := exists_step_of_any ran
  obtain ⟨second, later, called', rendered⟩ := exists_step_of_any ran
  have contained : ∀ name, ∀ entry ∈ [((9 : Nat), rekeyingCall name)], entry.2.SelfContained := by
    simp [rekeyingCall, Request.SelfContained, Description.namesAll, Description.names,
      Description.namesEntries]
  have runs := Runs.cons called (.nil session)
  have runs' := Runs.cons called' (.nil later)
  have visits := session.visits_start 8 ⟨0⟩
  have nameless : (Request.execute ⟨0⟩).SelfContained := trivial
  obtain ⟨_, lasts, moments⟩ := Runs.keys_kept BuiltinTable.standard_abides runs (contained "d")
  obtain ⟨keyed, keeps⟩ := lasts (contained "e") runs'
  obtain ⟨_, _, _, ⟨hand, _, becomes⟩, _⟩ := moments nameless visits
  exact ⟨first, second, session, later, called, called', of_decide_eq_true rendered, keyed, keeps,
    visits, hand, becomes⟩

end Session

end ScriptEngine
