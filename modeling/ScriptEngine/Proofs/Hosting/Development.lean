import ScriptEngine.Proofs.Control.Moments
import ScriptEngine.Proofs.Hosting.Slots
import ScriptEngine.Proofs.Hosting.Stacks

/-!
# Development throughout

Heaps develop from one operation on a workbench to the next, from one request to
the next, and from each moment of a request to each later one.  So what an object
is made of stays as it is as long as it lives: its type, which is of the kind of
its payload, a scalar, the length of a vector, and the keys of a dict.
-/

namespace ScriptEngine

open Evaluation

/-! ## Workbenches -/

namespace Workbench

variable {origin : Heap} {bench : Workbench}

/-- The heap of a workbench has developed from an earlier one. -/
def DevelopedFrom (origin : Heap) (bench : Workbench) : Prop :=
  origin.Develops False bench.heap

/-- A container has the type of one. -/
theorem Assembly.suits {assembly : Assembly} {slots rest : Holdings} {payload : Payload}
    (made : assembly.payload? slots = some (payload, rest)) : assembly.type.Suits payload := by
  cases assembly with
  | vector element elements =>
      obtain ⟨taken, _, given⟩ := Option.map_eq_some_iff.mp made
      cases given
      exact Or.inl rfl
  | dict key value entries =>
      obtain ⟨taken, _, given⟩ := Option.map_eq_some_iff.mp made
      cases given
      exact Or.inl rfl

namespace DevelopedFrom

variable (developed : bench.DevelopedFrom origin)
include developed

theorem onHeap {α : Type} (action : Heap → α × Heap)
    (develops : bench.heap.Develops False (action bench.heap).2) :
    (bench.onHeap action).2.DevelopedFrom origin :=
  Heap.Develops.trans developed develops

theorem remains {after : Workbench} (remains : Heap.Remains bench.heap after.heap) :
    after.DevelopedFrom origin :=
  Heap.Develops.trans developed remains.develops

theorem retain (address : Address) :
    { bench with heap := bench.heap.retain address }.DevelopedFrom origin :=
  developed.remains (.retain bench.heap address)

theorem onStorage {α : Type} (action : Scopes → Heap → α × Scopes × Heap)
    (develops : bench.heap.Develops False (action bench.scopes bench.heap).2.2) :
    (bench.onStorage action).2.DevelopedFrom origin :=
  Heap.Develops.trans developed develops

theorem release (addresses : List Address) : (bench.release addresses).DevelopedFrom origin :=
  developed.remains (.releaseAll _ addresses)

theorem deliver (target : String) (address : Address) :
    (bench.deliver target address).2.DevelopedFrom origin :=
  developed.remains (.releaseAll _ _)

theorem share (target : String) (address? : Option Address) :
    (bench.share target address?).2.DevelopedFrom origin := by
  cases address? with
  | none => exact developed
  | some address => exact (developed.retain address).deliver target address

theorem deliverScalar (target : String) (result : Except Cause Scalar) :
    (bench.deliverScalar target result).2.DevelopedFrom origin := by
  cases result with
  | error cause => exact developed
  | ok value =>
      have made := developed.onHeap (·.newScalar value)
        (Heap.Fashioned.newScalar bench.heap value).develops
      exact made.deliver target _

theorem withHandle {name : String} {action : Address → Reply × Workbench}
    (acts : ∀ address, (action address).2.DevelopedFrom origin) :
    (bench.withHandle name action).2.DevelopedFrom origin := by
  unfold Workbench.withHandle
  split
  · exact acts _
  · exact developed

theorem withHandles {left right : String} {action : Address → Address → Reply × Workbench}
    (acts : ∀ first second, (action first second).2.DevelopedFrom origin) :
    (bench.withHandles left right action).2.DevelopedFrom origin :=
  developed.withHandle fun first => developed.withHandle fun second => acts first second

theorem withPlace {name : String} {action : Place → Reply × Workbench}
    (acts : ∀ place, (action place).2.DevelopedFrom origin) :
    (bench.withPlace name action).2.DevelopedFrom origin := by
  unfold Workbench.withPlace
  split
  · exact acts _
  · exact developed

theorem copy (target : String) (address : Address) :
    ((bench.onHeap (·.copy address)).2.deliver target
      (bench.onHeap (·.copy address)).1).2.DevelopedFrom origin :=
  (developed.onHeap (·.copy address)
    (Heap.Fashioned.copy bench.heap address).develops).deliver target _

theorem unary (target : String) (operator : UnaryOperator) (operand : Address) :
    (bench.unary target operator operand).2.DevelopedFrom origin := by
  unfold Workbench.unary
  split
  · exact developed
  · exact developed.share target _
  · exact developed.deliverScalar target _

theorem cast (target : String) (source : Address) (type : StaticType) :
    (bench.cast target source type).2.DevelopedFrom origin := by
  unfold Workbench.cast
  split
  · exact developed
  · exact developed.deliverScalar target _
  · exact developed.copy target source

theorem keepPlace (name : String) (place : Place) (variableName : String) :
    (bench.keepPlace name place variableName).2.DevelopedFrom origin :=
  developed.remains (.releaseAll _ _)

theorem keepInnerPlace (name : String) (container : Address) (place : Place) :
    (bench.keepInnerPlace name container place).2.DevelopedFrom origin :=
  (developed.retain container).keepPlace name place ""

theorem read (target : String) (container key : Address) :
    (bench.read target container key).2.DevelopedFrom origin := by
  have walked := developed.onHeap (fun heap =>
    (heap.retain key).readElement container key)
    ((Heap.Remains.retain bench.heap key).develops.trans (.readElement _ container key))
  unfold Workbench.read
  generalize bench.onHeap _ = outcome at walked ⊢
  obtain ⟨result, bench⟩ := outcome
  cases result with
  | error cause => exact walked
  | ok address => exact walked.deliver target address

theorem locate (name : String) (container key : Address) (access : Access) :
    (bench.locate name container key access).2.DevelopedFrom origin := by
  have walked := developed.onHeap (fun heap =>
    (heap.retain key).locate container key access)
    ((Heap.Remains.retain bench.heap key).develops.trans (.locate _ container key access))
  unfold Workbench.locate
  generalize bench.onHeap _ = outcome at walked ⊢
  obtain ⟨result, bench⟩ := outcome
  cases result with
  | error cause => exact walked
  | ok place => exact walked.keepPlace name place ""

theorem store (place : Place) (source : Address) (target : String) :
    (bench.store place source target).2.DevelopedFrom origin := by
  have stored := developed.onStorage (fun scopes heap =>
    place.store scopes (heap.retain source) source)
    ((Heap.Remains.retain bench.heap source).develops.trans (.store place _ _ source))
  unfold Workbench.store
  generalize bench.onStorage _ = outcome at stored ⊢
  obtain ⟨result, bench⟩ := outcome
  cases result with
  | error cause => exact stored.release [source]
  | ok previous => exact stored.deliver target previous

theorem forgetSlot (name : String) : (bench.forgetSlot name).DevelopedFrom origin :=
  developed.remains (.dropSlots _ _)

theorem newSlot (slot : String) (source : Address) :
    (bench.newSlot slot source).2.DevelopedFrom origin := by
  have entered : { bench with heap := (bench.heap.retain source).enterSlot source }.DevelopedFrom
      origin :=
    developed.remains ((Heap.Remains.retain bench.heap source).trans (.enterSlot _ source))
  exact entered.forgetSlot slot

theorem replaceSlot (slot : String) (source : Address) (target : String) :
    (bench.replaceSlot slot source target).2.DevelopedFrom origin := by
  unfold Workbench.replaceSlot
  split
  · exact developed
  · rename_i previous _
    have entered := (Heap.Remains.retain bench.heap source).trans (.enterSlot _ source)
    exact developed.remains ((entered.trans (.leaveSlot _ previous)).trans (.releaseAll _ _))

theorem assemble (target : String) (assembly : Assembly) :
    (bench.assemble target assembly).2.DevelopedFrom origin := by
  unfold Workbench.assemble
  split
  · exact developed
  · rename_i payload slots made
    have allocated := developed.onHeap (·.allocate assembly.type payload)
      (.allocate bench.heap (assembly.suits made))
    exact Heap.Develops.trans allocated (Heap.Remains.releaseAll _ _).develops

theorem withFrame {name : String} {action : ScopeFrame → Reply × Workbench}
    (acts : ∀ frame, (action frame).2.DevelopedFrom origin) :
    (bench.withFrame name action).2.DevelopedFrom origin := by
  unfold Workbench.withFrame
  split
  · exact acts _
  · exact developed

theorem forgetFrame (name : String) : (bench.forgetFrame name).DevelopedFrom origin :=
  developed.remains (.dropSlots _ _)

theorem declareIn (frameName : String) (frame : ScopeFrame) (name : String) (value : Address) :
    (bench.declareIn frameName frame name value).2.DevelopedFrom origin := by
  have entered := (Heap.Remains.retain bench.heap value).trans (.enterSlot _ value)
  exact developed.remains (entered.trans (.dropSlots _ _))

theorem newCalls (limit : Option Nat) : (bench.newCalls limit).DevelopedFrom origin := by
  have discards : ∀ (frames : List CallFrame) (heap : Heap),
      heap.Develops False (frames.foldl (fun heap frame => frame.discard heap) heap) := by
    intro frames
    induction frames with
    | nil => exact fun heap => .refl heap
    | cons frame others induction =>
        intro heap
        exact (Heap.Develops.discard frame heap).trans (induction _)
  exact Heap.Develops.trans developed (discards _ bench.heap)

theorem pushCall (name : String) (callSite : Span) (scopeBase loopBase : Nat) :
    (bench.pushCall name callSite scopeBase loopBase).2.DevelopedFrom origin := by
  unfold Workbench.pushCall
  dsimp only
  split
  · exact developed
  · exact developed

theorem popCall : bench.popCall.2.DevelopedFrom origin := by
  unfold Workbench.popCall
  split
  · exact developed
  · rename_i frame _
    exact Heap.Develops.trans developed (.discard frame bench.heap)

theorem setResult (source : Address) : (bench.setResult source).2.DevelopedFrom origin := by
  unfold Workbench.setResult
  split
  · exact developed
  · rename_i frame _
    exact Heap.Develops.trans developed
      ((Heap.Remains.retain bench.heap source).develops.trans (.setResult frame _ source))

theorem takeResult (target : String) : (bench.takeResult target).2.DevelopedFrom origin := by
  unfold Workbench.takeResult
  split
  · exact developed
  · rename_i frame _
    have taken : origin.Develops False (frame.takeResult bench.heap).2.2 :=
      Heap.Develops.trans developed (.takeResult frame bench.heap)
    dsimp only
    split
    · exact taken
    · exact Heap.Develops.trans taken (Heap.Remains.releaseAll _ _).develops

theorem perform (command : Command) : (bench.perform command).2.DevelopedFrom origin := by
  cases command with
  | create target description =>
      rw [Workbench.perform]
      split
      · have made := developed.onHeap (fun heap =>
          description.allocate bench.handles heap) (.describe bench.handles description bench.heap)
        exact made.deliver target _
      · exact developed
  | handle target source => exact developed.withHandle fun _ => developed.share target _
  | copy target source => exact developed.withHandle fun _ => developed.copy target _
  | default target type =>
      have made := developed.onHeap (·.newDefault type)
        (Heap.Fashioned.newDefault bench.heap type).develops
      exact made.deliver target _
  | drop name => exact developed.withHandle fun _ => developed.remains (.releaseAll _ _)
  | «show» name => exact developed.withHandle fun _ => developed
  | quote name => exact developed.withHandle fun _ => developed
  | outline name => exact developed.withHandle fun _ => developed
  | equals left right => exact developed.withHandles fun _ _ => developed
  | same left right => exact developed.withHandles fun _ _ => developed
  | inspect name => exact developed.withHandle fun _ => developed
  | element target source position => exact developed.withHandle fun _ => developed.share target _
  | find target source key => exact developed.withHandles fun _ _ => developed.share target _
  | useZone number => exact Heap.Develops.trans developed (.remove rfl fun _ _ alive => alive)
  | resetZone number => exact Heap.Develops.trans developed (.remove rfl fun _ _ alive => alive)
  | sweep => exact Heap.Develops.trans developed (.sweep bench.heap)
  | live => exact developed
  | isLive name =>
      rw [Workbench.perform]
      split
      · exact developed
      · exact developed
  | newSlot slot source => exact developed.withHandle fun address => developed.newSlot slot address
  | readSlot target slot =>
      rw [Workbench.perform]
      split
      · exact developed.share target _
      · exact developed
  | replaceSlot slot source target =>
      exact developed.withHandle fun address => developed.replaceSlot slot address target
  | outlineSlot slot =>
      rw [Workbench.perform]
      split
      · exact developed
      · exact developed
  | dropSlot slot =>
      rw [Workbench.perform]
      split
      · exact developed.forgetSlot slot
      · exact developed
  | assemble target assembly => exact developed.assemble target assembly
  | arithmetic target operator left right =>
      exact developed.withHandles fun _ _ => developed.deliverScalar target _
  | compare operator left right =>
      apply developed.withHandles
      intro left right
      split
      · exact developed
      · exact developed
  | unary target operator operand =>
      exact developed.withHandle fun address => developed.unary target operator address
  | cast target source type =>
      exact developed.withHandle fun address => developed.cast target address type
  | position key length =>
      apply developed.withHandle
      intro address
      split
      · exact developed
      · exact developed
  | read target container key =>
      exact developed.withHandles fun container key => developed.read target container key
  | locate place container key access =>
      exact developed.withHandles fun container key => developed.locate place container key access
  | elementPlace place container position =>
      exact developed.withHandle fun container => developed.keepInnerPlace place container _
  | entryPlace place container position =>
      exact developed.withHandle fun container => developed.keepInnerPlace place container _
  | bindingPlace place depth name => exact developed.remains (.releaseAll _ _)
  | load target place =>
      apply developed.withPlace
      intro place
      split
      · exact developed.share target _
      · exact developed
  | store place source target =>
      exact developed.withPlace fun place => developed.withHandle fun address =>
        developed.store place address target
  | dropPlace place => exact developed.withPlace fun _ => developed.remains (.releaseAll _ _)
  | pushScope => exact developed
  | popScope => exact developed.remains (.pop bench.scopes bench.heap)
  | truncate depth => exact developed.remains (.popMany bench.scopes bench.heap _)
  | declare name source =>
      apply developed.withHandle
      intro address
      exact developed.remains
        ((Heap.Remains.retain bench.heap address).trans (.declare bench.scopes _ _ address))
  | resolve name floor => exact developed
  | lookup target name floor =>
      have interned : (bench.intern name).2.DevelopedFrom origin := developed
      exact interned.share target _
  | getBinding target depth name =>
      have interned : (bench.intern name).2.DevelopedFrom origin := developed
      exact interned.share target _
  | replaceBinding depth name source target =>
      apply developed.withHandle
      intro address
      have interned : (bench.intern name).2.DevelopedFrom origin := developed
      dsimp only
      split
      · exact interned
      · exact interned.store _ address target
  | skipFrom depth => exact developed
  | scopeInfo => exact developed
  | newFrame frame => exact developed.forgetFrame frame
  | declareIn frameName name source =>
      exact developed.withFrame fun frame => developed.withHandle fun address =>
        developed.declareIn frameName frame name address
  | readFrame target frameName name =>
      have interned : (bench.intern name).2.DevelopedFrom origin := developed
      exact developed.withFrame fun _ => interned.share target _
  | frameSize frameName => exact developed.withFrame fun _ => developed
  | dropFrame frameName => exact developed.withFrame fun _ => developed.forgetFrame frameName
  | newCalls limit => exact developed.newCalls limit
  | pushCall name callSite scopeBase loopBase =>
      exact developed.pushCall name callSite scopeBase loopBase
  | popCall => exact developed.popCall
  | setResult source => exact developed.withHandle fun address => developed.setResult address
  | takeResult target => exact developed.takeResult target
  | callInfo => exact developed
  | capture => exact developed
  | attach failure => exact developed
  | pushLoop scopeDepth => exact developed
  | popLoop => exact developed
  | innermostLoop base => exact developed
  | breakLoop base =>
      rw [Workbench.perform]
      split
      · exact developed
      · exact developed

end DevelopedFrom

end Workbench

/-! ## Requests -/

/-- The heap that a run leaves develops into another one. -/
def Outcome.DevelopsInto {α : Type} (careless : Prop) (target : Heap) : Outcome α → Prop
  | .value _ last => last.heap.Develops careless target
  | .failure _ last => last.heap.Develops careless target
  | .stopped _ => False

theorem Outcome.DevelopsFrom.into {α : Type} {careless : Prop} {origin middle target : Heap}
    {outcome : Outcome α} (before : outcome.DevelopsFrom careless origin middle)
    (after : outcome.DevelopsInto careless target) : origin.Develops careless target := by
  cases outcome with
  | value result last => exact before.trans after
  | failure failure last => exact before.trans after
  | stopped reason => exact after.elim

theorem Outcome.DevelopsInto.void {α : Type} {careless : Prop} {target : Heap}
    {body : Evaluation α} {start : State} (develops : (body start).DevelopsInto careless target) :
    ((body >>= fun _ => pure ()) start).DevelopsInto careless target := by
  rw [bind_run]
  cases outcome : body start with
  | value result last =>
      rw [outcome] at develops
      exact develops
  | failure failure last =>
      rw [outcome] at develops
      exact develops
  | stopped reason =>
      rw [outcome] at develops
      exact develops

theorem allowed_of_observed {α : Type} {allowed : State → Prop} {body : Evaluation α}
    {start last : State} (ended : (observed allowed body start).state? = some last) :
    allowed last := by
  rw [observed_run] at ended
  by_cases starts : allowed start
  · rw [if_pos starts] at ended
    cases outcome : body start with
    | value result after =>
        simp only [outcome] at ended
        by_cases ends : allowed after
        · rw [if_pos ends] at ended
          cases ended
          exact ends
        · rw [if_neg ends] at ended
          cases ended
    | failure failure after =>
        simp only [outcome] at ended
        by_cases ends : allowed after
        · rw [if_pos ends] at ended
          cases ended
          exact ends
        · rw [if_neg ends] at ended
          cases ended
    | stopped reason =>
        simp only [outcome] at ended
        cases ended
  · rw [if_neg starts] at ended
    cases ended

namespace Session

variable {careless : Prop} {session after : Session} {fuel : Nat} {request : Request}
  {reply : Reply}

theorem develops_deliver {before : Heap} (session : Session)
    (develops : before.Develops careless session.state.heap) (keep : Option String)
    (address : Address) :
    before.Develops careless (session.deliver keep address).2.state.heap := by
  cases keep with
  | none => exact develops.trans (Heap.Remains.releaseAll _ _).develops
  | some name => exact develops.trans (Heap.Remains.releaseAll _ _).develops

/-- What is left when a run has ended, and its result has been delivered. -/
theorem developsInto_of_conclude {α : Type} {outcome : Outcome α}
    {answer : Session → α → Reply × Session}
    (answers : ∀ (session : Session) result,
      session.state.heap.Develops careless (answer session result).2.state.heap)
    (concluded : session.conclude outcome answer = .ok (reply, after)) :
    outcome.DevelopsInto careless after.state.heap := by
  cases outcome with
  | value result last =>
      have answered := answers (session.withState last) result
      rwa [show answer (session.withState last) result = (reply, after) from
        Except.ok.inj concluded] at answered
  | failure failure last =>
      obtain ⟨_, rfl⟩ := Prod.mk.inj (Except.ok.inj concluded)
      exact .refl last.heap
  | stopped reason => cases concluded

theorem state?_of_conclude {outcome : Outcome Unit}
    (concluded : session.conclude outcome (fun session () => (.done, session)) =
      .ok (reply, after)) : outcome.state? = some after.state := by
  cases outcome with
  | value result last =>
      obtain ⟨_, rfl⟩ := Prod.mk.inj (Except.ok.inj concluded)
      rfl
  | failure failure last =>
      obtain ⟨_, rfl⟩ := Prod.mk.inj (Except.ok.inj concluded)
      rfl
  | stopped reason => cases concluded

/-- A request runs code and leaves what that has left, or lets the heap develop in
other ways. -/
theorem develops_of_perform (performed : session.perform fuel request = .ok (reply, after)) :
    (∃ outcome, session.outcome? (.withFuel session.interpreter.setup fuel) request =
      some outcome ∧ outcome.DevelopsInto careless after.state.heap) ∨
    session.outcome? (.withFuel session.interpreter.setup fuel) request = none ∧
      session.state.heap.Develops careless after.state.heap := by
  have answers : ∀ {answered : Reply × Session},
      session.state.heap.Develops careless answered.2.state.heap →
        Except.ok (ε := Stop) answered = .ok (reply, after) →
          session.state.heap.Develops careless after.state.heap := by
    intro answered develops given
    rwa [Except.ok.inj given] at develops
  rw [perform_eq] at performed
  rw [← outcomeWith?_runCall, outcomeWith?_eq]
  generalize session.errand request = errand at performed
  cases errand with
  | run code keep =>
      refine Or.inl ⟨_, rfl, (developsInto_of_conclude ?_ performed).void⟩
      intro session result
      cases result with
      | none => exact .refl session.state.heap
      | some address => exact session.develops_deliver (.refl _) keep address
  | lend address keep =>
      have retained : session.state.heap.Develops careless (session.state.heap.retain address) :=
        (Heap.Remains.retain session.state.heap address).develops
      exact Or.inr ⟨rfl, answers (develops_deliver
        (session.onHeap fun heap => ((), heap.retain address)).2 retained keep address) performed⟩
  | build description name =>
      have made : session.state.heap.Develops careless
          (description.allocate session.held session.state.heap).2 :=
        .describe session.held description session.state.heap
      exact Or.inr ⟨rfl, answers (develops_deliver
        (session.onHeap fun heap => description.allocate session.held heap).2 made (some name) _)
        performed⟩
  | drop name => exact Or.inr ⟨rfl, answers (Heap.Remains.releaseAll _ _).develops performed⟩
  | sweep => exact Or.inr ⟨rfl, answers (.sweep session.state.heap) performed⟩
  | clear => exact Or.inr ⟨rfl, answers (.refl _) performed⟩
  | answer reply => exact Or.inr ⟨rfl, answers (.refl _) performed⟩

/-! ## Moments -/

/-- Two moments of a request, one of which comes before the other: a run that waits
for the first and gives up at the second comes to the first, and a run that goes on
comes to the second. -/
def VisitsInTurn (session : Session) (fuel : Nat) (request : Request) (moment later : State) :
    Prop :=
  session.outcome? (.heeded session.interpreter.setup (.awaiting moment later) fuel) request =
      some (.stopped .interrupted) ∧
    session.Visits fuel request later

/-- The execution of a statement ends in the state that it leaves. -/
theorem visits_end {statement : StatementId}
    (performed : session.perform fuel (.execute statement) = .ok (reply, after)) :
    session.Visits fuel (.execute statement) after.state := by
  have left : ((Nested.withFuel session.interpreter.setup fuel).execute statement
      session.state).state? = some after.state := state?_of_conclude performed
  have halts : ((Nested.watched session.interpreter.setup (· ≠ after.state) fuel).execute statement
      session.state).state? ≠ some after.state := by
    generalize session.interpreter.setup = setup
    cases fuel with
    | zero => exact nofun
    | succ fuel =>
        intro ended
        exact allowed_of_observed ended rfl
  rcases (Nested.watched_below session.interpreter.setup (· ≠ after.state) fuel).execute statement
    session.state with same | stopped
  · rw [same] at halts
    exact absurd left halts
  · exact congrArg some stopped

theorem develops_opening (session : Session) (code : Code) :
    session.state.heap.Develops careless (session.opening code).heap := by
  cases code with
  | call function arguments => exact .describeAll session.held arguments session.state.heap
  | _ => exact .refl session.state.heap

variable (abides : session.interpreter.setup.builtins.Abides careless) {moment later : State}
include abides

/-- How a run ends that goes on where one is interrupted that halts earlier. -/
theorem passes_of_precedes {origin target : Heap} {halt halt' : Halt}
    (precedes : halt'.Precedes origin target halt) {shorter : Outcome Unit}
    (ran : session.outcome? (.heeded session.interpreter.setup halt' fuel) request =
      some shorter) :
    ∃ longer, session.outcome? (.heeded session.interpreter.setup halt fuel) request =
        some longer ∧
      longer.DevelopsFrom careless session.state.heap target ∧
      longer.Passes careless origin target shorter := by
  obtain ⟨code, body, body', passes, ran', rfl⟩ :=
    outcome?_related (Nested.heeded_passes precedes abides fuel) ran
  exact ⟨_, ran', (passes.develops _).after (session.develops_opening code), passes.passes _⟩

/-- The heap has developed until a moment. -/
theorem develops_of_visits (visits : session.Visits fuel request moment) :
    session.state.heap.Develops careless moment.heap := by
  have halts : (Halt.allowing (· ≠ moment)).Precedes moment.heap moment.heap
      (.allowing (· ≠ moment)) :=
    .allowing (fun _ other => other) fun state here => by rw [not_not.mp here]
  obtain ⟨longer, ran, develops, _⟩ := passes_of_precedes abides halts visits
  cases Option.some.inj (ran.symm.trans visits)
  exact develops rfl

/-- The heap has developed from one moment to another one that comes after it. -/
theorem develops_of_visitsInTurn (visits : session.VisitsInTurn fuel request moment later) :
    moment.heap.Develops careless later.heap := by
  obtain ⟨halted, visits⟩ := visits
  obtain ⟨longer, ran, _, passes⟩ := passes_of_precedes abides .awaiting halted
  cases Option.some.inj (ran.symm.trans visits)
  exact passes rfl rfl

/-- The heap has developed from one moment until the request is answered. -/
theorem develops_of_visited (visits : session.Visits fuel request moment)
    (performed : session.perform fuel request = .ok (reply, after)) :
    moment.heap.Develops careless after.state.heap := by
  have halts : (Halt.allowing (· ≠ moment)).Precedes moment.heap moment.heap
      (.allowing fun _ => True) :=
    .allowing (fun _ _ => trivial) fun _ never => absurd trivial never
  obtain ⟨longer, ran, _, passes⟩ := passes_of_precedes abides halts visits
  have watched : session.outcome? (.watched session.interpreter.setup (fun _ => True) fuel)
      request = some longer := ran
  rw [Nested.watched_true] at watched
  rcases develops_of_perform performed with ⟨outcome, ran', develops⟩ | ⟨quiet, _⟩
  · cases Option.some.inj (watched.symm.trans ran')
    exact (passes rfl).into develops
  · cases watched.symm.trans quiet

/-- The heap has developed when a request has been answered. -/
theorem develops_of_step {report : Report}
    (stepped : session.step fuel request = .ok (report, after)) :
    session.state.heap.Develops careless after.state.heap := by
  rcases develops_of_perform (perform_of_step stepped) with ⟨outcome, ran, develops⟩ | ⟨_, quiet⟩
  · obtain ⟨code, body, body', passes, ran', rfl⟩ :=
      outcome?_related (Nested.withFuel_related (.passing abides .empty .empty) fuel) ran
    have same := Option.some.inj (ran'.symm.trans ran)
    rw [← same] at develops
    exact ((passes.develops _).after (session.develops_opening code)).into develops
  · exact quiet

omit abides in
theorem Runs.develops {requests : List (Nat × Request)} {last : Session}
    (runs : Runs session requests last) (idle : session.state.Idle)
    (abides : session.interpreter.setup.builtins.Abides careless) :
    session.state.heap.Develops careless last.state.heap := by
  induction runs with
  | nil session => exact .refl session.state.heap
  | cons stepped _ induction =>
      have same := perform_sameControl idle (perform_of_step stepped)
      have rest := induction (idle.of_sameControl same.state) (by rw [same.setup]; exact abides)
      exact (develops_of_step abides stepped).trans rest

end Session

/-! ## What becomes of objects -/

theorem Heap.Kinded.blank : Heap.empty.Kinded := by
  intro address payload found
  simp [Heap.empty, Heap.payload?, Heap.get?_blank] at found

/-- What becomes of the objects of a heap, as long as they live.  They evolve, so
that what was a slot of one of them stays one, and they are of the kinds that their
types say where what is made is made with care. -/
structure Heap.Endures (careless : Prop) (before after : Heap) : Prop where
  evolves : before.Evolves after
  kinded : ¬careless → before.Kinded ∧ after.Kinded
  slots : ∀ {address position payload}, before.HasSlot address position →
    after.payload? address = some payload → after.HasSlot address position

theorem Heap.Develops.endures {careless : Prop} {before after : Heap}
    (develops : before.Develops careless after)
    (grown : Heap.empty.Develops careless before) : before.Endures careless after where
  evolves := develops.evolves
  kinded careful :=
    have kinded := grown.kinded careful .blank
    ⟨kinded, develops.kinded careful kinded⟩
  slots := develops.evolves.hasSlot

theorem Workbench.developed_after (origin : Heap) (commands : List Command) (bench : Workbench)
    (developed : bench.DevelopedFrom origin) :
    (commands.foldl (fun bench command => (bench.perform command).2) bench).DevelopedFrom
      origin := by
  induction commands generalizing bench with
  | nil => exact developed
  | cons command others induction => exact induction _ (developed.perform command)

open Session in
/-- Objects evolve in place, whatever operations are done on a workbench, and in any
session: from one request to any later one, to each moment of a request, from there
to each later moment, and until the request has been answered. -/
theorem objects_endure :
    (∀ commands more : List Workbench.Command,
      (Workbench.after commands).heap.Endures False (Workbench.after (commands ++ more)).heap) ∧
    ∀ {careless : Prop} {program : Program} {builtins : BuiltinTable} {sink : Sink}
      {limit : Option Nat}, builtins.Abides careless →
      ∀ {requests : List (Nat × Request)} {session : Session},
        Runs (start program builtins sink limit) requests session →
          (∀ {more : List (Nat × Request)} {last : Session}, Runs session more last →
            session.state.heap.Endures careless last.state.heap) ∧
          ∀ {fuel : Nat} {request : Request} {moment : State},
            session.Visits fuel request moment →
              session.state.heap.Endures careless moment.heap ∧
              (∀ {later : State}, session.VisitsInTurn fuel request moment later →
                moment.heap.Endures careless later.heap) ∧
              ∀ {report : Report} {after : Session},
                session.step fuel request = .ok (report, after) →
                  moment.heap.Endures careless after.state.heap := by
  constructor
  · intro commands more
    have blank : Workbench.initial.DevelopedFrom Heap.empty := .remove rfl fun _ _ alive => alive
    have grown := Workbench.developed_after Heap.empty commands .initial blank
    have developed := Workbench.developed_after (Workbench.after commands).heap more
      (Workbench.after commands) (Heap.Develops.refl _)
    rw [Workbench.after, Workbench.after, List.foldl_append]
    exact Heap.Develops.endures developed grown
  · intro careless program builtins sink limit abides requests session runs
    have idle : (start program builtins sink limit).state.Idle := State.idle_initial _ _ rfl
    have grown := runs.develops idle abides
    have setup := (runs.sameControl idle).setup
    have abides : session.interpreter.setup.builtins.Abides careless := by
      rw [setup]
      exact abides
    constructor
    · intro more last onward
      exact (onward.develops (runs.idle idle) abides).endures grown
    · intro fuel request moment visits
      have reached := develops_of_visits abides visits
      refine ⟨reached.endures grown, ?_, ?_⟩
      · intro later inTurn
        exact (develops_of_visitsInTurn abides inTurn).endures (grown.trans reached)
      · intro report after stepped
        exact (develops_of_visited abides visits (perform_of_step stepped)).endures
          (grown.trans reached)

/-- A program with a global variable, a function that stores its argument there, and a
statement that stores under a key of what is stored there. -/
def Session.keeping : Program where
  expressions := #[⟨.literal (.int 0), .empty⟩, ⟨.reference ⟨1⟩, .empty⟩,
    ⟨.reference ⟨2⟩, .empty⟩, ⟨.assign ⟨1⟩ ⟨2⟩, .empty⟩, ⟨.literal (.int 7), .empty⟩,
    ⟨.index ⟨1⟩ [⟨4⟩], .empty⟩, ⟨.assign ⟨5⟩ ⟨4⟩, .empty⟩]
  statements := #[⟨.declare ⟨1⟩ (some ⟨0⟩), .empty⟩, ⟨.expression ⟨3⟩, .empty⟩,
    ⟨.expression ⟨6⟩, .empty⟩]
  functions := #[⟨.empty, [⟨⟨2⟩, .dict .int .int⟩], .none, ⟨[⟨1⟩], .empty⟩, .empty⟩]

open Session in
theorem objects_endure_keeping :
    ∃ first second third opened session after,
      (start keeping .standard .silent none).step 9 (.run [⟨0⟩]) = .ok (first, opened) ∧
      opened.step 9 (.call ⟨0⟩ [.dict .int .int []] none) = .ok (second, session) ∧
      session.step 9 (.execute ⟨2⟩) = .ok (third, after) ∧
      (∃ dict, session.state.lookup? ⟨1⟩ = some dict ∧ after.state.lookup? ⟨1⟩ = some dict ∧
        session.state.heap.render false dict = "{}" ∧
        after.state.heap.render false dict = "{ 7: 7 }") ∧
      session.VisitsInTurn 9 (.execute ⟨2⟩) session.state after.state ∧
      session.state.heap.Endures False after.state.heap := by
  have ran : ((start keeping .standard .silent none).step 9 (.run [⟨0⟩])).toOption.any
      (fun opening => (opening.2.step 9 (.call ⟨0⟩ [.dict .int .int []] none)).toOption.any
        fun called => (called.2.step 9 (.execute ⟨2⟩)).toOption.any fun ran =>
          called.2.state.lookup? ⟨1⟩ = some 2 ∧ ran.2.state.lookup? ⟨1⟩ = some 2 ∧
            called.2.state.heap.render false 2 = "{}" ∧
            ran.2.state.heap.render false 2 = "{ 7: 7 }") = true := by
    decide +kernel
  obtain ⟨first, opened, declared, ran⟩ := exists_step_of_any ran
  obtain ⟨second, session, called, ran⟩ := exists_step_of_any ran
  obtain ⟨third, after, executed, dict⟩ := exists_step_of_any ran
  have runs := Runs.cons declared (.cons called (.nil session))
  have visits := session.visits_start 8 ⟨2⟩
  have inTurn : session.VisitsInTurn 9 (.execute ⟨2⟩) session.state after.state := by
    refine ⟨?_, session.visits_end (perform_of_step executed)⟩
    simp [outcome?, Nested.heeded, Nested.heeding, heeding, gated, Halt.awaiting]
  obtain ⟨_, moments⟩ := objects_endure.2 BuiltinTable.standard_abides runs
  exact ⟨first, second, third, opened, session, after, declared, called, executed,
    ⟨2, of_decide_eq_true dict⟩, inTurn, (moments visits).2.1 inTurn⟩

end ScriptEngine
