import ScriptEngine.Proofs.Control.Idle
import ScriptEngine.Proofs.Hosting.Requests
import ScriptEngine.Proofs.Ownership.Reachability

/-!
# Sessions

Between two requests the handles at hand are those that the host holds, and
nothing is owned.  A lasting property of the ledger holds after every request
and at every moment during one, if it also outlasts the values that the host
describes.  Descriptions can name held objects only where those may be lent.
-/

namespace ScriptEngine

open Evaluation

/-! ## Before anything exists -/

theorem Heap.get?_blank (address : Address) : ({} : Heap).get? address = none := by
  simp [Heap.get?]

theorem Heap.stored_blank : ({} : Heap).stored = 0 := by
  simp [Heap.stored]

theorem Scopes.bound_blank : ({} : Scopes).bound = 0 := by
  simp [Scopes.bound, Scopes.frames, ScopeFrame.values]

namespace Ledger

theorem Balanced.blank (limit : Option Nat) :
    (({ calls := { limit := limit } } : State).ledger .empty).Balanced := by
  constructor
  · intro frame member
    simp only [State.ledger, Scopes.frames, List.mem_cons, List.toList_toArray,
      List.not_mem_nil, or_false] at member
    subst member
    exact List.nodup_nil
  · constructor
    · intro address object found
      simp [State.ledger, Heap.get?_blank] at found
    · intro address object found
      simp [State.ledger, Heap.get?_blank] at found
    · intro address object found
      simp [State.ledger, Heap.get?_blank] at found
    · intro address member
      simp [State.ledger, handles, Hand.empty, Heap.stored_blank, Scopes.bound_blank,
        Calls.results] at member
    · rfl

theorem Separated.blank (limit : Option Nat) :
    (({ calls := { limit := limit } } : State).ledger .empty).Separated := by
  have hollow : ∀ address, ¬ ({} : Heap).IsContainer address := by
    rintro address ⟨payload, found, _⟩
    simp [Heap.payload?, Heap.get?_blank] at found
  constructor
  · refine ⟨fun _ => none, fun _ => 0, ?_⟩
    constructor
    · intro holder child holds
      exact absurd holds.isContainer (hollow holder)
    · intro holder child holds
      exact absurd holds.isContainer (hollow holder)
    · intro address container
      exact absurd container (hollow address)
    · intro address _ container
      exact absurd container (hollow address)
    · intro address _ _
      rfl
    · intro address member
      simp [State.ledger, kept, lent, Hand.empty, Heap.stored_blank, Scopes.bound_blank,
        Calls.results] at member
  · intro address member
    simp [State.ledger] at member

theorem Tidy.blank (limit : Option Nat) :
    (({ calls := { limit := limit } } : State).ledger .empty).Tidy := by
  constructor
  · constructor
    · intro address object found
      simp [State.ledger, Heap.get?_blank] at found
    · intro address object found
      simp [State.ledger, Heap.get?_blank] at found
  · simp [State.ledger]

theorem Orderly.blank {limit : Option Nat} :
    (({ calls := { limit := limit } } : State).ledger .empty).Orderly :=
  ⟨.blank limit, .blank limit, .blank limit⟩

end Ledger

/-! ## Handles by name -/

/-- The entry of a name and those of the other names. -/
theorem perm_of_lookup {α : Type} {entries : List (String × α)}
    (distinct : (entries.map Prod.fst).Nodup) (name : String) :
    (entries.map Prod.snd).Perm
      ((entries.lookup name).toList ++ (entries.filter (·.1 != name)).map Prod.snd) := by
  induction entries with
  | nil => rfl
  | cons entry others induction =>
      obtain ⟨key, value⟩ := entry
      rw [List.map_cons, List.nodup_cons] at distinct
      by_cases same : key = name
      · subst same
        have unnamed : others.filter (·.1 != key) = others := by
          apply List.filter_eq_self.mpr
          intro other member
          have different : other.1 ≠ key := by
            intro equal
            exact distinct.1 (List.mem_map.mpr ⟨other, member, equal⟩)
          simpa using different
        simp [unnamed]
      · have reverse : (name == key) = false := by simpa using Ne.symm same
        have rest := (induction distinct.2).cons value
        simp only [List.lookup_cons, reverse, List.filter_cons, bne_iff_ne, ne_eq, same,
          not_false_eq_true, if_true, List.map_cons]
        exact rest.trans List.perm_middle.symm

theorem nodup_filter_cons {α : Type} {entries : List (String × α)}
    (distinct : (entries.map Prod.fst).Nodup) (name : String) (value : α) :
    (((name, value) :: entries.filter (·.1 != name)).map Prod.fst).Nodup := by
  rw [List.map_cons, List.nodup_cons]
  constructor
  · intro member
    obtain ⟨entry, inside, same⟩ := List.mem_map.mp member
    simp [same] at inside
  · exact distinct.sublist (List.filter_sublist.map _)

namespace Description

/-- A single described value. -/
theorem allocateAll_singleton (holdings : Holdings) (heap : Heap) (description : Description) :
    allocateAll holdings heap [description] =
      ([(description.allocate holdings heap).1], (description.allocate holdings heap).2) := rfl

theorem namesAll_singleton (description : Description) :
    namesAll [description] = description.names := by
  simp [namesAll]

end Description

/-- What outlasts described values, which are lent or owned by the host. -/
def Ledger.Describing (lent : Bool) (property : Ledger → Prop) : Prop :=
  ∀ (ledger : Ledger) (holdings : Holdings) (descriptions : List Description),
    (∀ name address, holdings.get? name = some address → address ∈ ledger.shared) →
    (lent = false → Description.namesAll descriptions = []) → property ledger →
      property { ledger with
        heap := (Description.allocateAll holdings ledger.heap descriptions).2
        toHand := ledger.toHand.carryAll lent
          (Description.allocateAll holdings ledger.heap descriptions).1 }

/-- Descriptions that name nothing are new values like others. -/
theorem Ledger.Lasting.describing {licence : Licence} {property : Ledger → Prop}
    (lasting : Ledger.Lasting licence property) : Ledger.Describing false property := by
  intro ledger holdings descriptions _ contained kept
  have made := Heap.Fashioned.describeAll holdings descriptions (contained rfl) ledger.heap
  exact lasting (.craft made.makes (zero_add ledger.owned).symm) kept

/-- What holds between and during the requests of a host: a lasting property of
balanced ledgers that outlasts described values. -/
structure Ledger.Hosted (lent : Bool) (careless : Prop) (property : Ledger → Prop) : Prop where
  lasting : Ledger.Lasting ⟨lent = true, careless⟩ property
  describing : Ledger.Describing lent property
  balanced : ∀ {ledger : Ledger}, property ledger → ledger.Balanced

namespace Session

/-- Descriptions in a request that name no held object. -/
def Request.SelfContained : Request → Prop
  | .call _ arguments _ => Description.namesAll arguments = []
  | .create _ description => description.names = []
  | _ => True

/-- Descriptions in an errand that name no held object. -/
def Errand.SelfContained : Errand → Prop
  | .run (.call _ arguments) _ => Description.namesAll arguments = []
  | .build description _ => description.names = []
  | _ => True

theorem errand_selfContained (session : Session) {request : Request}
    (contained : request.SelfContained) : (session.errand request).SelfContained := by
  cases request with
  | call function arguments keep =>
      simp only [errand]
      split
      · exact contained
      · trivial
  | create name description =>
      simp only [errand]
      split
      · exact contained
      · trivial
  | _ =>
      simp only [errand]
      repeat' split
      all_goals trivial

def hand (session : Session) : Hand :=
  ⟨0, (session.held.map Prod.snd : List Address)⟩

def ledger (session : Session) : Ledger :=
  session.state.ledger session.hand

/-- A property of the ledger between two requests. -/
structure Upholds (careless : Prop) (property : Ledger → Prop) (session : Session) : Prop where
  abides : session.interpreter.setup.builtins.Abides careless
  ledger : property session.ledger
  idle : session.state.Idle
  distinct : (session.held.map Prod.fst).Nodup

variable {licence : Licence} {careless : Prop} {property : Ledger → Prop} {session : Session}

theorem Upholds.lawful (upholds : session.Upholds careless property) :
    session.interpreter.setup.builtins.Lawful :=
  upholds.abides.lawful

theorem mem_shared_of_get? {name : String} {address : Address}
    (found : session.held.get? name = some address) : address ∈ session.hand.shared := by
  obtain ⟨earlier, later, split, _⟩ := List.lookup_eq_some_iff.mp found
  simp [hand, split]

/-- An idle state, and a property of its ledger with some handles. -/
def Rests (property : Ledger → Prop) (hand : Hand) (state : State) : Prop :=
  property (state.ledger hand) ∧ state.Idle

/-- The state that an outcome leaves rests. -/
def EndsAtRest {α : Type} (property : Ledger → Prop) (hands : α → Hand) (failed : Hand) :
    Outcome α → Prop
  | .value result state => Rests property (hands result) state
  | .failure _ state => Rests property failed state
  | .stopped _ => True

/-- Only the heap is different. -/
theorem Rests.onHeap {state : State} {hand hand' : Hand} {heap : Heap}
    (rests : Rests property hand state)
    (kept : property ({ state with heap := heap }.ledger hand')) :
    Rests property hand' { state with heap := heap } :=
  ⟨kept, rests.2.call, rests.2.loop, rests.2.scope⟩

theorem Upholds.rests (upholds : session.Upholds careless property) :
    Rests property session.hand session.state :=
  ⟨upholds.ledger, upholds.idle⟩

theorem Upholds.withState {state : State} (upholds : session.Upholds careless property)
    (rests : Rests property session.hand state) : (session.withState state).Upholds careless property :=
  ⟨upholds.abides, rests.1, rests.2, upholds.distinct⟩

/-- Described values are lent, or owned where nothing is lent. -/
theorem Upholds.described {lent : Bool} (upholds : session.Upholds careless property)
    (describing : Ledger.Describing lent property) (descriptions : List Description)
    (nameless : lent = false → Description.namesAll descriptions = []) :
    Rests property (session.hand.carryAll lent
        (Description.allocateAll session.held session.state.heap descriptions).1)
      { session.state with
        heap := (Description.allocateAll session.held session.state.heap descriptions).2 } := by
  apply upholds.rests.onHeap
  exact describing session.ledger session.held descriptions
    (fun name address found => mem_shared_of_get? found) nameless upholds.ledger

/-! ## Keeping handles and giving them up -/

/-- The handle of a name is given up; handles that are not held yet stay. -/
theorem forget_keeps (lasting : Ledger.Lasting licence property)
    (distinct : (session.held.map Prod.fst).Nodup) (name : String) (extra : List Address)
    (kept : property (session.state.ledger (session.hand.shareAll extra))) :
    property ((session.forget name).state.ledger ((session.forget name).hand.shareAll extra)) := by
  have split := perm_of_lookup distinct name
  have regrouped : session.hand.shareAll extra =
      ((session.forget name).hand.shareAll extra).shareAll (session.held.get? name).toList := by
    unfold hand Hand.shareAll
    rw [Multiset.coe_eq_coe.mpr split, ← Multiset.coe_add, add_left_comm]
    rfl
  rw [regrouped] at kept
  exact ((Holding.stable lasting session.state.calls.depth).giveBack ⟨kept, rfl⟩).1

/-- An object is shown to the host, which keeps a handle on it or gives it
back. -/
theorem Upholds.deliver (upholds : session.Upholds careless property)
    (lasting : Ledger.Lasting licence property) {state : State} (lent : Bool) {address : Address}
    (rests : Rests property (session.hand.carry lent address) state) (keep : Option String) :
    ((session.withState state).deliver keep address).2.Upholds careless property := by
  obtain ⟨kept, idle⟩ := rests
  have stable := Holding.stable lasting state.calls.depth
  cases keep with
  | none =>
      rw [← Hand.carryAll_nil lent session.hand, ← Hand.carryAll_cons] at kept
      have released := (stable.discard ⟨kept, rfl⟩).1
      exact upholds.withState ⟨released, idle.call, idle.loop, idle.scope⟩
  | some name =>
      have shared : property (state.ledger (session.hand.shareAll [address])) := by
        rw [Hand.shareAll_cons, Hand.shareAll_nil]
        cases lent with
        | false => exact (stable.lower ⟨kept, rfl⟩).1
        | true => exact kept
      have forgotten := (session.withState state).forget_keeps lasting upholds.distinct name
        [address] shared
      refine ⟨upholds.abides, forgotten, ⟨idle.call, idle.loop, idle.scope⟩, ?_⟩
      exact nodup_filter_cons upholds.distinct name address

/-- What a run leaves of a session, given what it leaves of the state. -/
theorem Upholds.conclude {α : Type} {outcome : Outcome α} {hands : α → Hand}
    {answer : Session → α → Reply × Session} {reply : Reply} {after : Session}
    (upholds : session.Upholds careless property)
    (ended : EndsAtRest property hands session.hand outcome)
    (answers : ∀ result state, Rests property (hands result) state →
      (answer (session.withState state) result).2.Upholds careless property)
    (concluded : session.conclude outcome answer = .ok (reply, after)) :
    after.Upholds careless property := by
  unfold Session.conclude at concluded
  cases outcome with
  | value result state =>
      have answered := answers result state ended
      have same : answer (session.withState state) result = (reply, after) :=
        Except.ok.inj concluded
      rw [same] at answered
      exact answered
  | failure failure state =>
      obtain ⟨_, rfl⟩ := Prod.mk.inj (Except.ok.inj concluded)
      exact upholds.withState ended
  | stopped reason => simp at concluded

/-- Triples about the ledger and about control flow taken together. -/
theorem Rests.ends {α : Type} {body : Evaluation α} {state : State} {hand failed : Hand}
    {hands : α → Hand} (rests : Rests property hand state)
    (ledgers : Triple (Holding property state.calls.depth hand) body
      (fun result => Holding property state.calls.depth (hands result))
      (Holding property state.calls.depth failed))
    (control : Triple State.Idle body (fun _ => State.Idle) State.Idle) :
    EndsAtRest property hands failed (body state) := by
  have first := ledgers state ⟨rests.1, rfl⟩
  have second := control state rests.2
  cases outcome : body state with
  | value result after =>
      rw [outcome] at first second
      exact ⟨first.1, second⟩
  | failure failure after =>
      rw [outcome] at first second
      exact ⟨first.1, second⟩
  | stopped reason => trivial

/-! ## Requests -/

/-- The handles at hand where code starts. -/
def handed (session : Session) (lent : Bool) (hand : Hand) : Code → Hand
  | .call _ arguments =>
      hand.carryAll lent (Description.allocateAll session.held session.state.heap arguments).1
  | _ => hand

/-- Where code starts, its arguments are lent, or owned where nothing is lent. -/
theorem Upholds.opened {lent : Bool} (upholds : session.Upholds careless property)
    (describing : Ledger.Describing lent property) {code : Code} {keep : Option String}
    (contained : lent = false → (Errand.run code keep).SelfContained) :
    Rests property (session.handed lent session.hand code) (session.opening code) := by
  cases code with
  | call function arguments => exact upholds.described describing arguments contained
  | _ => exact upholds.rests

/-- Code leaves the handle on what it results in. -/
theorem evaluation_triple {lent : Bool}
    (lasting : Ledger.Lasting ⟨lent = true, careless⟩ property) {nested : Nested}
    (sound : nested.Sound property) (depth : Nat) (hand : Hand) (code : Code) :
    Triple (Holding property depth (session.handed lent hand code))
      (session.evaluation nested (runCall session.interpreter.setup nested) code)
      (fun result => Holding property depth (hand.ownAll result.toList))
      (Holding property depth hand) := by
  cases code with
  | statements ids =>
      refine (sequence_triple sound ids hand).bind fun _ => .pure fun _ kept => ?_
      rwa [Option.toList_none, Hand.ownAll_nil]
  | statement id =>
      refine (sound.execute id depth hand).bind fun _ => .pure fun _ kept => ?_
      rwa [Option.toList_none, Hand.ownAll_nil]
  | expression id =>
      refine ((sound.operands depth).evaluate id hand).bind fun _ => .pure fun _ kept => ?_
      rwa [Option.toList_some, Hand.ownAll_cons, Hand.ownAll_nil]
  | call function arguments =>
      refine (callUser_triple lasting sound (fun allowed => allowed) function _ .empty hand).bind
        fun _ => .pure fun _ kept => ?_
      rwa [Option.toList_some, Hand.ownAll_cons, Hand.ownAll_nil]

theorem evaluation_idle (session : Session) (fuel : Nat) (code : Code) :
    let nested := Nested.withFuel session.interpreter.setup fuel
    Triple State.Idle
      (session.evaluation nested (runCall session.interpreter.setup nested) code)
      (fun _ => State.Idle) State.Idle := by
  have ends : ∀ {α β : Type} {body : Evaluation α} {view : α → β},
      Triple State.Idle body (fun _ => State.Idle) State.Idle →
        Triple State.Idle (body >>= fun result => pure (view result)) (fun _ => State.Idle)
          State.Idle := fun triple => triple.bind fun _ => .pure fun _ idle => idle
  cases code with
  | statements ids => exact ends (Nested.sequence_idle _ fuel ids)
  | statement id => exact ends (Nested.execute_idle _ fuel id)
  | expression id => exact ends (Nested.evaluate_idle _ fuel id)
  | call function arguments => exact ends (Nested.callUser_idle _ fuel function _)

theorem Upholds.perform {lent : Bool} (hosted : Ledger.Hosted lent careless property) {fuel : Nat}
    {request : Request} {reply : Reply} {after : Session} (upholds : session.Upholds careless property)
    (contained : lent = false → request.SelfContained)
    (performed : session.perform fuel request = .ok (reply, after)) :
    after.Upholds careless property := by
  obtain ⟨lasting, describing, balances⟩ := hosted
  have fits := session.errand_fits request
  have alone : lent = false → (session.errand request).SelfContained :=
    fun owned => session.errand_selfContained (contained owned)
  rw [perform_eq] at performed
  generalize session.errand request = errand at fits alone performed
  cases errand with
  | run code keep =>
      have sound := Nested.withFuel_sound lasting upholds.abides fuel
      have ended := (upholds.opened describing alone).ends
        (evaluation_triple lasting sound _ session.hand code) (session.evaluation_idle fuel code)
      refine upholds.conclude ended ?_ performed
      intro result state rests
      cases result with
      | none => exact upholds.withState rests
      | some address => exact upholds.deliver lasting false rests keep
  | lend address keep =>
      obtain ⟨position, name, found⟩ := fits
      have shared := upholds.rests.onHeap
        (lasting (.share (Or.inl (Scopes.mem_bound_of_get? found))) upholds.ledger)
      have delivered := upholds.deliver lasting true shared keep
      rw [← (Prod.mk.inj (Except.ok.inj performed)).2]
      exact delivered
  | build description name =>
      have made := upholds.described describing [description] fun owned => by
        rw [Description.namesAll_singleton]
        exact alone owned
      rw [Description.allocateAll_singleton, Hand.carryAll_cons, Hand.carryAll_nil] at made
      have delivered := upholds.deliver lasting lent made (some name)
      rw [← (Prod.mk.inj (Except.ok.inj performed)).2]
      exact delivered
  | drop name =>
      obtain ⟨_, rfl⟩ := Prod.mk.inj (Except.ok.inj performed)
      have forgotten := session.forget_keeps lasting upholds.distinct name [] (by
        rw [Hand.shareAll_nil]
        exact upholds.ledger)
      rw [Hand.shareAll_nil] at forgotten
      exact ⟨upholds.abides, forgotten, ⟨upholds.idle.call, upholds.idle.loop, upholds.idle.scope⟩,
        upholds.distinct.sublist (List.filter_sublist.map _)⟩
  | sweep =>
      obtain ⟨_, rfl⟩ := Prod.mk.inj (Except.ok.inj performed)
      have same : session.state.heap.sweep.2 = session.state.heap :=
        congrArg Prod.snd (balances upholds.ledger).heap.sweep_eq
      have rests : Rests property session.hand
          { session.state with heap := session.state.heap.sweep.2 } := by
        rw [same]
        exact upholds.rests
      exact upholds.withState rests
  | clear =>
      obtain ⟨_, rfl⟩ := Prod.mk.inj (Except.ok.inj performed)
      exact upholds.withState ⟨upholds.ledger, upholds.idle.call, upholds.idle.loop,
        upholds.idle.scope⟩
  | answer reply =>
      obtain ⟨_, rfl⟩ := Prod.mk.inj (Except.ok.inj performed)
      exact upholds

/-! ## Runs of requests -/

/-- A session that has not run anything. -/
def start (program : Program) (builtins : BuiltinTable) (sink : Sink) (limit : Option Nat) :
    Session where
  interpreter := .create program builtins sink limit

/-- Requests made one after another, each with fuel of its own. -/
inductive Runs : Session → List (Nat × Request) → Session → Prop where
  | nil (session : Session) : Runs session [] session
  | cons {session next last : Session} {fuel : Nat} {request : Request} {report : Report}
      {others : List (Nat × Request)} :
      session.step fuel request = .ok (report, next) → Runs next others last →
      Runs session ((fuel, request) :: others) last

theorem perform_of_step {fuel : Nat} {request : Request} {report : Report} {after : Session}
    (stepped : session.step fuel request = .ok (report, after)) :
    session.perform fuel request = .ok (report.reply, after) := by
  unfold step at stepped
  cases performed : session.perform fuel request with
  | error reason => simp [performed] at stepped
  | ok answered =>
      obtain ⟨reply, next⟩ := answered
      simp only [performed, Except.ok.injEq, Prod.mk.injEq] at stepped
      rw [← stepped.1, ← stepped.2]

/-- A step that can be checked by evaluation. -/
theorem exists_step_of_any {fuel : Nat} {request : Request} {check : Report × Session → Bool}
    (passed : (session.step fuel request).toOption.any check = true) :
    ∃ report after, session.step fuel request = .ok (report, after) ∧
      check (report, after) = true := by
  cases stepped : session.step fuel request with
  | error reason => simp [stepped, Except.toOption] at passed
  | ok answer => exact ⟨answer.1, answer.2, rfl, by simpa [stepped, Except.toOption] using passed⟩

theorem Runs.upholds {lent : Bool} (hosted : Ledger.Hosted lent careless property)
    {requests : List (Nat × Request)} {last : Session} (runs : Runs session requests last)
    (contained : ∀ entry ∈ requests, lent = false → entry.2.SelfContained)
    (upholds : session.Upholds careless property) : last.Upholds careless property := by
  induction runs with
  | nil session => exact upholds
  | cons stepped _ induction =>
      have performed := perform_of_step stepped
      apply induction
      · intro entry member
        exact contained entry (List.mem_cons_of_mem _ member)
      · exact upholds.perform hosted (contained _ List.mem_cons_self) performed

theorem start_upholds_abiding {program : Program} {builtins : BuiltinTable} {sink : Sink}
    {limit : Option Nat} (abides : builtins.Abides careless)
    (blank : property (({ calls := { limit := limit } } : State).ledger .empty)) :
    (start program builtins sink limit).Upholds careless property :=
  ⟨abides, blank, State.idle_initial _ _ rfl, List.nodup_nil⟩

theorem start_upholds {program : Program} {builtins : BuiltinTable} {sink : Sink}
    {limit : Option Nat} (lawful : builtins.Lawful)
    (blank : property (({ calls := { limit := limit } } : State).ledger .empty)) :
    (start program builtins sink limit).Upholds True property :=
  start_upholds_abiding lawful.abides blank

/-! ## Moments during a request -/

/-- A state in which the evaluation of some node begins or ends while a request
is carried out. -/
def Visits (session : Session) (fuel : Nat) (request : Request) (moment : State) : Prop :=
  session.outcome? (.watched session.interpreter.setup (· ≠ moment) fuel) request =
    some (.stopped .interrupted)

/-- The execution of a statement begins in the state of the session. -/
theorem visits_start (session : Session) (fuel : Nat) (statement : StatementId) :
    session.Visits (fuel + 1) (.execute statement) session.state := by
  simp [Visits, outcome?, Nested.watched_succ, Nested.observed, Nested.heeding, heeding, gated,
    Halt.allowing]

/-- Code that starts with some handles at hand, and is not interrupted. -/
theorem uninterrupted {lent : Bool} (lasting : Ledger.Lasting ⟨lent = true, careless⟩ property)
    (hand : Hand) {request : Request}
    (opened : ∀ {code keep}, session.errand request = .run code keep →
      property ((session.opening code).ledger (session.handed lent hand code)))
    {nested : Nested} (sound : nested.Sound property) :
    session.outcome? nested request ≠ some (.stopped .interrupted) := by
  intro ended
  rw [← outcomeWith?_runCall] at ended
  obtain ⟨code, keep, asked, ended⟩ := exists_code_of_outcomeWith? ended
  exact (evaluation_triple lasting sound _ hand code).void.uninterrupted ⟨opened asked, rfl⟩ ended

/-- A run in which no moment of its kind is interrupted. -/
theorem Upholds.uninterrupted {lent : Bool} (hosted : Ledger.Hosted lent careless property)
    (upholds : session.Upholds careless property) {request : Request}
    (contained : lent = false → request.SelfContained) {nested : Nested}
    (sound : nested.Sound property) :
    session.outcome? nested request ≠ some (.stopped .interrupted) := by
  refine Session.uninterrupted hosted.lasting session.hand (fun {code keep} asked => ?_) sound
  have alone : lent = false → (Errand.run code keep).SelfContained := by
    rw [← asked]
    exact fun owned => session.errand_selfContained (contained owned)
  exact (upholds.opened hosted.describing alone).1

/-- A lasting property holds at every moment of a request, with the handles
that are at hand there. -/
theorem Upholds.visited {lent : Bool} (hosted : Ledger.Hosted lent careless property)
    (upholds : session.Upholds careless property) {fuel : Nat} {request : Request} {moment : State}
    (contained : lent = false → request.SelfContained)
    (visits : session.Visits fuel request moment) :
    ∃ hand, property (moment.ledger hand) := by
  by_contra never
  have sound : (Nested.watched session.interpreter.setup (· ≠ moment) fuel).Sound property := by
    apply Nested.watched_sound hosted.lasting upholds.abides
    rintro state hand kept rfl
    exact never ⟨hand, kept⟩
  exact upholds.uninterrupted hosted contained sound visits

end Session

end ScriptEngine
