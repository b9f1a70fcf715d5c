import ScriptEngine.Proofs.Hosting.Remnants
import ScriptEngine.Proofs.Hosting.Trails

/-!
# Assignments that fail

The walk to the target of an assignment creates the entries that it misses, before
later indices and the value are evaluated.  If one of these fails, the entries stay:
one chain of them, in which each is the default for the one before it.  Nothing else
is left of an assignment that fails, and nothing at all of another expression.
-/

namespace ScriptEngine

open Evaluation

namespace Heap

variable {origin heap after : Heap} {container key address : Address} {place : Place}
variable {slots handles slots' handles' : Multiset Address}

/-! ## What a walk does -/

/-- What becomes of the objects that were there when a walk started: nothing but their
counts is different, or a dict has got an entry, in whose value the walk goes on. -/
inductive Growth (origin heap : Heap) : List Stride → Address → Prop where
  | still {strides : List Stride} {address : Address} :
      origin.Preserves heap → address < origin.cells.size → Growth origin heap strides address
  | sprouting {followed others : List Stride} {stride : Stride} {entries : List (Address × Address)}
      {value tip : Address} :
      origin.Preserves stride.keyed.heap →
      origin.payload? stride.container = some (.dict entries) →
      heap.payload? stride.container = some (.dict (entries ++ [(stride.key, value)])) →
      Entered stride.keyed.heap heap stride.container entries stride.key stride.tree →
      stride.keyed.heap.cells.size ≤ value →
      Shoot heap ((origin.type stride.container).parameter 1) value (others.map Stride.tree) tip →
      Growth origin heap (followed ++ stride :: others) tip

namespace Growth

variable {strides : List Stride}

theorem size (growth : origin.Growth heap strides address) : origin.cells.size ≤ heap.cells.size := by
  cases growth with
  | still preserves _ => exact preserves.size
  | sprouting preserves _ _ entered _ _ => exact preserves.size.trans entered.spares.size

/-- What was there and is alive was alive. -/
theorem past (growth : origin.Growth heap strides address) {other : Address} {object : Object}
    (old : other < origin.cells.size) (alive : heap.get? other = some object) :
    ∃ object, origin.get? other = some object := by
  cases growth with
  | still preserves _ =>
      obtain ⟨earlier, past, _⟩ := preserves.object old alive
      exact ⟨earlier, past⟩
  | @sprouting _ _ stride _ _ _ preserves _ _ entered _ _ =>
      have but := (preserves.survives.but stride.container).trans entered.spares
      cases past : origin.payload? other with
      | none =>
          have absent := but.gone old past
          rw [payload?_of_get? alive] at absent
          cases absent
      | some payload =>
          obtain ⟨earlier, past, _⟩ := payload?_eq_some_iff.mp past
          exact ⟨earlier, past⟩

/-- Containers keep what they hold. -/
theorem holds (growth : origin.Growth heap strides address) {holder child : Address}
    (alive : ∃ object, heap.get? holder = some object) (held : origin.Holds holder child) :
    heap.Holds holder child := by
  obtain ⟨object, alive⟩ := alive
  have present := payload?_of_get? alive
  obtain ⟨payload, found, member⟩ := held
  have old := lt_size_of_payload? found
  cases growth with
  | still preserves _ =>
      rw [preserves.survives.payload old present] at found
      cases found
      exact ⟨_, present, member⟩
  | @sprouting _ _ stride entries value _ preserves known grown entered _ _ =>
      have but := (preserves.survives.but stride.container).trans entered.spares
      by_cases same : stride.container = holder
      · subst same
        cases known.symm.trans found
        refine ⟨_, grown, ?_⟩
        rw [Payload.children, List.flatMap_append]
        exact List.mem_append_left _ member
      · rw [but.payload old same present] at found
        cases found
        exact ⟨_, present, member⟩

/-- Evaluations that disturb nothing leave a growth as it is. -/
theorem preserved (growth : origin.Growth heap strides address) (preserves : heap.Preserves after)
    (balanced : after.Balanced slots handles)
    (alive : ∀ {address object}, address < origin.cells.size → heap.get? address = some object →
      ∃ object, after.get? address = some object) :
    origin.Growth after strides address := by
  cases growth with
  | still preserved old => exact .still (preserved.trans preserves) old
  | @sprouting _ _ stride _ value _ preserved known grown entered younger shoot =>
      obtain ⟨object, present, _⟩ := payload?_eq_some_iff.mp grown
      obtain ⟨later, living⟩ := alive (lt_size_of_payload? known) present
      have survives := preserves.survives
      have same := survives.payload?_eq (lt_size_of_payload? grown)
        (by simp [payload?_of_get? living])
      refine .sprouting preserved known (same.trans grown)
        ⟨entered.sound, entered.found, entered.alive, entered.missing, entered.contents,
          entered.spares.survives survives⟩ younger (shoot.survives survives balanced ?_)
      apply balanced.alive
      have stored : value ∈ after.stored := by
        apply mem_stored_iff_holds.mpr
        refine ⟨_, _, same.trans grown, ?_⟩
        exact List.mem_flatMap.mpr ⟨(stride.key, value), List.mem_append_right _ (by simp), by simp⟩
      simp [stored]

/-- An entry that is created where the walk is. -/
theorem create (stride : Stride)
    (growth : origin.Growth stride.keyed.heap strides stride.container)
    (sound : stride.keyed.heap.Sound slots handles)
    (alive : ∃ object, stride.keyed.heap.get? stride.key = some object)
    {entries : List (Address × Address)}
    (found : stride.keyed.heap.payload? stride.container = some (.dict entries))
    (missing : stride.keyed.heap.findEntry? entries stride.key = none) :
    origin.Growth (stride.keyed.heap.createEntry stride.container stride.key entries)
      (strides ++ [stride]) stride.keyed.heap.cells.size := by
  cases growth with
  | still preserves old =>
      have survives := preserves.survives
      obtain ⟨initial, types⟩ := created_of_createEntry stride.key found
      rw [survives.type old found] at initial types
      exact .sprouting preserves (survives.payload old found) (payload?_createEntry stride.key found)
        ⟨⟨_, _, sound⟩, found, alive, missing, rfl, .createEntry found⟩ le_rfl (.tip types initial)
  | @sprouting followed others first _ value _ preserves known grown entered younger shoot =>
      obtain ⟨type, _, initial⟩ := shoot.payload?_tip
      cases StaticType.initial_eq_dict (Option.some.inj (initial.symm.trans found))
      have beyond := younger.trans shoot.le
      have different : stride.container ≠ first.container := by
        intro same
        rw [same] at beyond
        exact absurd (lt_size_of_payload? entered.found) (Nat.not_lt.mpr beyond)
      have shoot := shoot.grow sound found alive
      change Shoot _ _ _ (others.map Stride.tree ++ [stride].map Stride.tree) _ at shoot
      rw [← List.map_append] at shoot
      rw [List.append_assoc, List.cons_append]
      exact .sprouting preserves known (payload?_createEntry_of_ne stride.key found different grown)
        ⟨entered.sound, entered.found, entered.alive, entered.missing, entered.contents,
          entered.spares.trans_young (.createEntry found) (Or.inr beyond)⟩ younger shoot

/-- A default has no slots yet. -/
theorem spotless (growth : origin.Growth heap strides container) {position : Nat}
    (found : heap.spot container key = .ok (.element position) ∨
      heap.spot container key = .ok (.entry position)) :
    origin.Preserves heap ∧ container < origin.cells.size := by
  cases growth with
  | still preserves old => exact ⟨preserves, old⟩
  | sprouting _ _ _ _ _ shoot =>
      obtain ⟨type, _, initial⟩ := shoot.payload?_tip
      rcases found with found | found
      · obtain ⟨elements, value, payload, stored⟩ := element_of_spot found
        have same := Option.some.inj (initial.symm.trans payload)
        unfold StaticType.initial at same
        split at same
        · cases same
        · split at same
          · cases same
          · cases same
            simp at stored
      · obtain ⟨entries, entry, payload, stored⟩ := entry_of_spot found
        cases StaticType.initial_eq_dict (Option.some.inj (initial.symm.trans payload))
        simp at stored

end Growth

end Heap

/-! ## Walks -/

namespace Heap.Growth

variable {setup : Setup} {origin state later : State} {hand more : Hand} {strides : List Stride}
  {address : Address}

/-- A growth outlasts what disturbs nothing, as long as the handles stay at hand. -/
theorem carry (growth : origin.heap.Growth state.heap strides address)
    (orderly : (origin.ledger hand).Orderly) (aside : origin.Aside later)
    (preserves : state.heap.Preserves later.heap) (part : hand.PartOf more)
    (balanced : (later.ledger more).Balanced) : origin.heap.Growth later.heap strides address := by
  apply growth.preserved preserves balanced.heap
  intro other object old alive
  obtain ⟨earlier, past⟩ := growth.past old alive
  apply orderly.alive_of_alive balanced (aside.covers part) _ past
  rintro holder child ⟨after, living⟩ held
  change later.heap.get? holder = some after at living
  obtain ⟨payload, found, _⟩ := id held
  have small := (lt_size_of_payload? found).trans_le growth.size
  obtain ⟨between, present, _⟩ := preserves.object small living
  obtain ⟨payload, found, member⟩ := growth.holds ⟨between, present⟩ held
  have same := preserves.survives.payload?_eq small (by simp [payload?_of_get? living])
  exact ⟨payload, same.trans found, member⟩

variable {depth : Nat} {next : Place} {container key : Address} {heap : Heap}

/-- The growth of a walk by one index. -/
theorem locate (place : Place) (growth : origin.heap.Growth state.heap strides container)
    (orderly : (origin.ledger hand).Orderly) (aside : origin.Aside state) (part : hand.PartOf more)
    (held : Holding Ledger.Orderly depth (more.own key) state)
    (standing : Standing Ledger.Orderly depth more next { state with heap := heap })
    (located : state.heap.locate container key .write = (.ok next, heap))
    (loaded : next.load state.scopes heap = .ok address) :
    origin.heap.Growth heap (strides ++ [⟨place, container, key, state, heap⟩]) address := by
  have only : next.handles = [container] := by
    have written := congrArg Prod.fst located
    exact handles_of_locate written
  rcases locate_write_cases located with ⟨⟨position, found⟩, rfl⟩ |
    ⟨entries, payload, missing, rfl, same⟩
  · have spots : state.heap.spot container key = .ok (.element position) ∨
        state.heap.spot container key = .ok (.entry position) :=
      found.imp And.left And.left
    obtain ⟨preserved, old⟩ := growth.spotless spots
    have preserves := (preserved.trans (.releaseAll state.heap [key])).trans (.retain _ container)
    refine .still preserves ?_
    cases Place.leads_of_load loaded with
    | binding same _ => simp [same, Place.handles] at only
    | @inside _ object _ same alive offered _ _ =>
        cases same.symm.trans only
        obtain ⟨earlier, past, alike⟩ := preserves.object old alive
        rw [alike] at offered
        have stored := mem_stored.mpr
          ⟨_, earlier, past, Payload.mem_children_of_mem_offers offered⟩
        exact orderly.balanced.heap.lt_size (by simp [State.ledger, stored])
  · have owned : ∃ object, state.heap.get? key = some object := by
      apply held.1.balanced.heap.alive
      simp [Ledger.handles, State.ledger, Hand.own]
    have created := create ⟨place, container, key, state, heap⟩ growth held.1.sound owned payload missing
    have tip : address = state.heap.cells.size := by
      subst same
      simp only [Place.load, payload?_retain, payload?_createEntry key payload,
        List.getElem?_concat_length] at loaded
      cases loaded
      rfl
    subst tip
    have grown : State.Aside origin { state with heap := heap } :=
      aside.trans (.onHeap state (size_le_of_locate located))
    have retained : Preserves (state.heap.createEntry container key entries) heap :=
      same ▸ .retain _ container
    exact @carry _ { state with heap := state.heap.createEntry container key entries }
      { state with heap := heap } _ _ _ _ created orderly grown retained (part.shareAll _)
      standing.1.1.balanced

end Heap.Growth

namespace Evaluation

variable {setup : Setup} {licence : Licence} {origin : State} {hand : Hand} {depth : Nat}

/-- Whatever has grown when a walk starts, it grows with the indices that are followed. -/
theorem growth_of_tracks (abides : setup.builtins.Abides licence.careless)
    (orderly : (origin.ledger hand).Orderly) {place last : Place} {indices : List ExpressionId}
    {start reached : State} {strides followed : List Stride}
    (quiet : ∀ index ∈ indices, setup.program.Quiet index)
    (tracks : Tracks setup place indices start strides last reached)
    (standing : Standing Ledger.Orderly depth hand place start) (aside : origin.Aside start)
    (growth : ∀ {address}, place.load start.scopes start.heap = .ok address →
      origin.heap.Growth start.heap followed address) :
    origin.Aside reached ∧ Standing Ledger.Orderly depth hand last reached ∧
      ∀ {address}, last.load reached.scopes reached.heap = .ok address →
        origin.heap.Growth reached.heap (followed ++ strides) address := by
  induction tracks generalizing followed with
  | nil place state => exact ⟨aside, standing, by rwa [List.append_nil]⟩
  | @cons place next last container key index others start keyed reached heap strides fuel loaded
      valued located _ induction =>
      have lasting := @Ledger.Orderly.step licence
      have sound := (Nested.withFuel_sound lasting abides fuel).operands depth
      obtain ⟨owned, stands, released⟩ :=
        standing.stride lasting (fun orderly => orderly.balanced) sound loaded valued located
      have gentle := (Nested.gentle (quiet index List.mem_cons_self) fuel).1.of_value valued
      have part := ((Hand.PartOf.refl hand).shareAll place.handles).share container
      have retained : start.Undisturbed { start with heap := start.heap.retain container } :=
        .onHeap start (.retain _ container)
      have undisturbed := retained.trans gentle
      have keyedAside := aside.trans undisturbed.toAside
      have grown := (growth loaded).carry orderly keyedAside undisturbed.heap (part.own key)
        owned.1.balanced
      have back : State.Undisturbed { keyed with heap := heap }
          ((State.releaseAll { keyed with heap := heap } [container]).releaseAll place.handles) :=
        (State.Undisturbed.releaseAll _ _).trans (.releaseAll _ _)
      have later := (keyedAside.trans (.onHeap keyed (Heap.size_le_of_locate located))).trans
        back.toAside
      have rest := @induction (followed ++ [⟨place, container, key, keyed, heap⟩])
        (fun other member => quiet other (List.mem_cons_of_mem _ member)) released later ?_
      · rwa [List.append_assoc] at rest
      intro address loads
      have located' := back.heap.survives.load loads fun container member =>
        stands.1.1.balanced.heap.lt_size (by simp [Ledger.handles, State.ledger, Hand.shareAll, member])
      have grows := grown.locate place orderly keyedAside part owned stands located located'
      exact grows.carry orderly later back.heap (.shareAll (.refl hand) next.handles) released.1.1.balanced

/-- An assignment that fails has followed some of the indices of its target, and disturbs
nothing from there on. -/
theorem tracks_of_failing_assign {fuel : Nat} {target value : ExpressionId} {start last : State}
    {failure : Failure} (abides : setup.builtins.Abides licence.careless)
    (orderly : (start.ledger hand).Orderly)
    (quiet : ∀ {name indices}, setup.program.Addresses target name indices →
      ∀ index ∈ indices, setup.program.Quiet index)
    (quietValue : setup.program.Quiet value)
    (ended : assign (Nested.withFuel setup fuel).toOperands target value start =
      .failure failure last) :
    start.Undisturbed last ∨
      ∃ name earlier later position strides place middle,
        setup.program.Addresses target name (earlier ++ later) ∧
        Tracks setup (.binding position name) earlier start strides place middle ∧
        middle.Undisturbed last := by
  rcases failure_bind ended with targeted | ⟨place, walked, targeted, rest⟩
  · exact tracks_of_failing_target quiet targeted
  obtain ⟨name, indices, position, strides, addresses, _, tracks⟩ := tracks_of_target targeted
  rw [← List.append_nil indices] at addresses
  refine Or.inr ⟨name, indices, [], position, strides, place, walked, addresses, tracks, ?_⟩
  obtain ⟨middle, stored, rfl⟩ := failure_of_holding rest
  refine State.Undisturbed.trans ?_ (.releaseAll middle place.handles)
  rcases failure_bind stored with valued | ⟨stored, evaluated, valued, _⟩
  · exact (Nested.gentle quietValue fuel).1.of_failure valued
  · have duplicated : copy stored evaluated = .value _ _ := rfl
    obtain ⟨previous, scopes, heap, written⟩ := storeIn_ends abides orderly targeted valued duplicated
    obtain ⟨_, assigned⟩ := assign_ends targeted valued duplicated written
    rw [ended] at assigned
    cases assigned

end Evaluation

/-- What has grown is left as a chain of entries. -/
theorem Heap.Growth.sprouted {before after : State} {hand : Hand} {strides : List Stride}
    {tip : Address} (growth : before.heap.Growth after.heap strides tip)
    (orderly : (before.ledger hand).Orderly) (orderly' : (after.ledger hand).Orderly)
    (aside : before.Aside after) :
    before.Unchanged after ∨ ∃ followed stride others, strides = followed ++ stride :: others ∧
      before.Sprouted after stride.container stride.tree (others.map Stride.tree) := by
  have alive : ∀ {address object}, before.heap.get? address = some object →
      ∃ object, after.heap.get? address = some object :=
    fun past => orderly.alive_of_alive orderly'.balanced (aside.covers (.refl hand)) growth.holds past
  cases growth with
  | still preserves _ => exact Or.inl (State.Undisturbed.unchanged ⟨aside, preserves⟩ orderly orderly')
  | @sprouting followed others stride entries value _ preserves known grown entered younger shoot =>
      have but := (preserves.survives.but stride.container).trans entered.spares
      have young := preserves.size.trans younger
      obtain ⟨contents, missing⟩ := entered.settled orderly'.sound grown
      refine Or.inr ⟨followed, stride, others, rfl, aside,
        ⟨entries, stride.key, value, known, grown, missing, contents, young,
          shoot.sprout orderly'.sound, ?_⟩, ?_, ?_⟩
      · apply aside.origin {stride.key, value} orderly.balanced orderly'
        rintro holder child ⟨object, past⟩ ⟨payload, found, member⟩
        have old := lt_size_of_get?_eq_some past
        by_cases same : stride.container = holder
        · subst same
          cases grown.symm.trans found
          rw [Payload.children, List.flatMap_append, List.mem_append] at member
          rcases member with earlier | later
          · exact Or.inl ⟨_, known, earlier⟩
          · exact Or.inr (by simpa using later)
        · exact Or.inl ⟨payload, but.payload old same found, member⟩
      · intro address payload different found
        obtain ⟨object, past, _⟩ := payload?_eq_some_iff.mp found
        obtain ⟨later, living⟩ := alive past
        have present := payload?_of_get? living
        rw [present, ← found, but.payload (lt_size_of_payload? found) different present]
      · intro address payload found
        obtain ⟨object, past, _⟩ := payload?_eq_some_iff.mp found
        obtain ⟨later, living⟩ := alive past
        exact but.type (lt_size_of_payload? found) (payload?_of_get? living)

/-- What a walk from a variable leaves behind, if nothing is disturbed after it. -/
theorem Evaluation.Tracks.remnants {setup : Setup} {licence : Licence} {start middle last : State}
    {hand : Hand} {name : Name} {position : Nat} {indices : List ExpressionId}
    {strides : List Stride} {place : Place}
    (tracks : Tracks setup (.binding position name) indices start strides place middle)
    (abides : setup.builtins.Abides licence.careless)
    (orderly : (start.ledger hand).Orderly) (orderly' : (last.ledger hand).Orderly)
    (quiet : ∀ index ∈ indices, setup.program.Quiet index) (undisturbed : middle.Undisturbed last) :
    start.Unchanged last ∨ ∃ followed stride others, strides = followed ++ stride :: others ∧
      start.Sprouted last stride.container stride.tree (others.map Stride.tree) := by
  by_cases bound : ∃ container,
      Place.load (.binding position name) start.scopes start.heap = .ok container
  · obtain ⟨container, loaded⟩ := bound
    have standing : Standing Ledger.Orderly start.calls.depth hand (.binding position name) start := by
      refine ⟨⟨?_, rfl⟩, container, loaded⟩
      rwa [Place.handles, Hand.shareAll_nil]
    have still : ∀ {address},
        Place.load (.binding position name) start.scopes start.heap = .ok address →
        start.heap.Growth start.heap [] address := by
      intro address loads
      refine .still (.refl _) (orderly.balanced.heap.lt_size ?_)
      cases Place.leads_of_load loads with
      | binding same found =>
          cases same
          have member := Scopes.mem_bound_of_get? found
          simp [State.ledger, member]
      | inside _ only _ _ _ _ => simp [Place.handles] at only
    obtain ⟨aside, stands, growth⟩ := growth_of_tracks abides orderly quiet tracks standing
      (State.Undisturbed.refl start).toAside still
    obtain ⟨value, loads⟩ := stands.2
    have grown := (growth loads).carry orderly (aside.trans undisturbed.toAside) undisturbed.heap
      (.refl hand) orderly'.balanced
    exact grown.sprouted orderly orderly' (aside.trans undisturbed.toAside)
  · cases tracks with
    | nil => exact Or.inl (undisturbed.unchanged orderly orderly')
    | cons _ loaded _ _ _ => exact absurd ⟨_, loaded⟩ bound

namespace Session

variable {session : Session}

/-- An assignment that fails leaves one chain of entries behind, if no index and not the
value has a call or an assignment in it: each binding has the object that it had, and
the objects that were there hold what they held, except that one dict has got the
key that was missing.  No more entries are added than there are indices.  Any other
expression without calls and assignments, such as a read of an element, leaves nothing
behind when it fails. -/
theorem Runs.failing_assignments {program : Program} {builtins : BuiltinTable} {sink : Sink}
    {limit : Option Nat} (lawful : builtins.Lawful) {requests : List (Nat × Request)}
    (runs : Runs (start program builtins sink limit) requests session) {fuel : Nat}
    {request : Request} {moment : State} (visits : session.Visits fuel request moment)
    (fuel : Nat) {id : ExpressionId} {failure : Failure} {last : State} :
    (∀ {target value : ExpressionId} {span : Span},
      program.expression? id = some ⟨.assign target value, span⟩ →
      (∀ {name indices}, program.Addresses target name indices →
        ∀ index ∈ indices, program.Quiet index) →
      program.Quiet value →
      (Nested.withFuel ⟨program, builtins⟩ fuel).evaluate id moment = .failure failure last →
      moment.Unchanged last ∨
        ∃ name earlier later position followed stride others place middle,
          program.Addresses target name (earlier ++ later) ∧
          Tracks ⟨program, builtins⟩ (.binding position name) earlier moment
            (followed ++ stride :: others) place middle ∧
          (stride :: others).length ≤ (earlier ++ later).length ∧
          moment.Sprouted last stride.container stride.tree (others.map Stride.tree)) ∧
    (program.Quiet id →
      (Nested.withFuel ⟨program, builtins⟩ fuel).evaluate id moment = .failure failure last ∨
        (Nested.withFuel ⟨program, builtins⟩ fuel).share id moment = .failure failure last →
      moment.Unchanged last) := by
  have upholds := runs.upholds Ledger.Orderly.hosted (by simp)
    (start_upholds lawful Ledger.Orderly.blank)
  obtain ⟨hand, orderly⟩ := upholds.visited Ledger.Orderly.hosted (by simp) visits
  have lasting := @Ledger.Orderly.step ⟨True, True⟩
  have idle : (start program builtins sink limit).state.Idle := State.idle_initial _ _ rfl
  have setup : session.interpreter.setup = ⟨program, builtins⟩ := (runs.sameControl idle).setup
  have abides := upholds.lawful.abides
  rw [setup] at abides
  have held : Holding Ledger.Orderly moment.calls.depth hand moment := ⟨orderly, rfl⟩
  have sound := (Nested.withFuel_sound lasting abides fuel).operands moment.calls.depth
  constructor
  · intro target value span found quiet quietValue ended
    obtain ⟨orderly', _⟩ := (sound.evaluate id hand).of_failure held ended
    cases fuel with
    | zero => cases ended
    | succ fuel =>
        change withExpression ⟨program, builtins⟩ id _ moment = _ at ended
        unfold withExpression at ended
        rw [found] at ended
        obtain ⟨inner, ended⟩ := failure_of_located ended
        rcases @tracks_of_failing_assign _ ⟨True, True⟩ _ _ _ _ _ _ _ abides orderly quiet quietValue
          ended with undisturbed | ⟨name, earlier, later, position, strides, place, middle, addresses,
            tracks, undisturbed⟩
        · exact Or.inl (undisturbed.unchanged orderly orderly')
        · have followable : ∀ index ∈ earlier, program.Quiet index :=
            fun index member => quiet addresses index (List.mem_append_left _ member)
          rcases @Tracks.remnants _ ⟨True, True⟩ _ _ _ _ _ _ _ _ _ tracks abides orderly orderly'
            followable undisturbed with unchanged | ⟨followed, stride, others, rfl, sprouted⟩
          · exact Or.inl unchanged
          · refine Or.inr ⟨name, earlier, later, position, followed, stride, others, place, middle,
              addresses, tracks, ?_, sprouted⟩
            have length := tracks.length
            rw [List.length_append] at length ⊢
            omega
  · intro quiet ended
    rcases ended with ended | ended
    · obtain ⟨orderly', _⟩ := (sound.evaluate id hand).of_failure held ended
      exact ((Nested.gentle quiet fuel).1.of_failure ended).unchanged orderly orderly'
    · obtain ⟨orderly', _⟩ := (sound.share id hand).of_failure held ended
      exact ((Nested.gentle quiet fuel).2.of_failure ended).unchanged orderly orderly'

/-- A function that binds a global to a copy of its argument, and an assignment to an
element of an element of that global, from a variable that is not defined. -/
def budding : Program where
  expressions :=
    #[⟨.literal (.int 0), .empty⟩, ⟨.reference ⟨0⟩, .empty⟩, ⟨.reference ⟨1⟩, .empty⟩,
      ⟨.assign ⟨1⟩ ⟨2⟩, .empty⟩, ⟨.index ⟨1⟩ [⟨0⟩, ⟨0⟩], .empty⟩, ⟨.reference ⟨2⟩, .empty⟩,
      ⟨.assign ⟨4⟩ ⟨5⟩, .empty⟩]
  statements := #[⟨.declare ⟨0⟩ (some ⟨0⟩), .empty⟩, ⟨.expression ⟨3⟩, .empty⟩]
  functions :=
    #[⟨.empty, [⟨⟨1⟩, .dict .int (.dict .int .int)⟩], .none, ⟨[⟨1⟩], .empty⟩, .empty⟩]

theorem budding_quiet : budding.Quiet ⟨0⟩ ∧ budding.Quiet ⟨5⟩ := by
  constructor
  · exact @Program.Quiet.of_operands _ _ (.literal (.int 0)) .empty rfl (by simp) (by simp)
      (by simp [Expression.operands])
  · exact @Program.Quiet.of_operands _ _ (.reference ⟨2⟩) .empty rfl (by simp) (by simp)
      (by simp [Expression.operands])

theorem budding_addresses {name : Name} {indices : List ExpressionId}
    (addresses : budding.Addresses ⟨4⟩ name indices) : indices = [⟨0⟩, ⟨0⟩] := by
  cases addresses with
  | reference found => cases found
  | index found based =>
      cases found
      cases based with
      | reference _ => rfl
      | index found _ => cases found

/-- An entry is left in the dict, and another one in its value. -/
theorem Runs.failing_assignments_budding :
    ∃ first second middle session failure last dict tree trees,
      (start budding .standard .silent none).step 9 (.run [⟨0⟩]) = .ok (first, middle) ∧
      middle.step 9 (.call ⟨0⟩ [.dict .int (.dict .int .int) []] none) = .ok (second, session) ∧
      (Nested.withFuel ⟨budding, .standard⟩ 9).evaluate ⟨6⟩ session.state =
        .failure failure last ∧
      session.state.Sprouted last dict tree trees := by
  have ran : ((start budding .standard .silent none).step 9 (.run [⟨0⟩])).toOption.any
      (fun declared => (declared.2.step 9
        (.call ⟨0⟩ [.dict .int (.dict .int .int) []] none)).toOption.any fun called =>
          match (Nested.withFuel ⟨budding, .standard⟩ 9).evaluate ⟨6⟩ called.2.state with
          | .failure _ last => (called.2.state.lookup? ⟨0⟩).any fun dict =>
              decide (called.2.state.heap.payload? dict = some (.dict [])) &&
                decide (last.heap.payload? dict ≠ some (.dict []))
          | _ => false) = true := by
    decide +kernel
  obtain ⟨first, middle, declared, ran⟩ := exists_step_of_any ran
  obtain ⟨second, session, called, ran⟩ := exists_step_of_any ran
  have runs := Runs.cons declared (.cons called (.nil session))
  have visits := session.visits_start 8 ⟨0⟩
  split at ran
  · rename_i failure last ended
    obtain ⟨assigns, _⟩ := @Runs.failing_assignments _ _ _ _ _ BuiltinTable.standard_lawful _ runs _
      _ _ visits 9 ⟨6⟩ failure last
    have quiet : ∀ {name indices}, budding.Addresses ⟨4⟩ name indices →
        ∀ index ∈ indices, budding.Quiet index := by
      intro name indices addresses index member
      rw [budding_addresses addresses] at member
      simp only [List.mem_cons, List.not_mem_nil, or_false, or_self] at member
      exact member ▸ budding_quiet.1
    rcases assigns rfl quiet budding_quiet.2 ended with unchanged |
      ⟨_, _, _, _, _, stride, others, _, _, _, _, _, sprouted⟩
    · obtain ⟨dict, _, checked⟩ := (Option.any_eq_true _ _).mp ran
      simp only [Bool.and_eq_true, decide_eq_true_eq] at checked
      obtain ⟨object, alive, empty⟩ := Heap.payload?_eq_some_iff.mp checked.1
      exact absurd (Heap.payload?_eq_some_iff.mpr ⟨object, unchanged.object alive, empty⟩) checked.2
    · exact ⟨first, second, middle, session, failure, last, _, _, _, declared, called, ended, sprouted⟩
  · simp at ran

end Session

end ScriptEngine
