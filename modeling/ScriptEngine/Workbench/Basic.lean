import ScriptEngine.Workbench.Command

/-!
# Workbench

A workbench holds handles, slots, places and scope frames by name beside one
stack of scopes, one of calls and one of loops, and carries out single operations
on them. Its objects belong to one of two zones.
-/

namespace ScriptEngine

/-- The names of a workbench map to handles, to slots, to places and to scope
frames that are in no stack. -/
structure Workbench where
  heap : Heap := {}
  /-- The zones that have the two numbers. -/
  zones : Vector Nat 2 := #v[0, 1]
  handles : Holdings := []
  /-- The number of the last object put under a name. -/
  serials : List (String × Nat) := []
  slots : Holdings := []
  places : List (String × Place) := []
  frames : List (String × ScopeFrame) := []
  scopes : Scopes := {}
  calls : Calls := {}
  loops : Loops := {}
  names : Interner := .initial
deriving Inhabited

namespace Workbench

/-- A workbench with two empty zones, the first in use. -/
def initial : Workbench where
  heap := { Heap.empty.openZone with zone := 0 }

/-! ## Changing the heap -/

def onHeap {α : Type} (bench : Workbench) (action : Heap → α × Heap) : α × Workbench :=
  let heap := bench.heap
  let bench := { bench with heap := .empty }
  let (result, heap) := action heap
  (result, { bench with heap := heap })

def release (bench : Workbench) (addresses : List Address) : Workbench :=
  (bench.onHeap fun heap => ((), heap.releaseAll addresses)).2

def onStorage {α : Type} (bench : Workbench)
    (action : Scopes → Heap → α × Scopes × Heap) : α × Workbench :=
  let (result, scopes, heap) := action bench.scopes bench.heap
  (result, { bench with scopes := scopes, heap := heap })

/-! ## Names -/

def handle? (bench : Workbench) (name : String) : Option Address :=
  bench.handles.get? name

def place? (bench : Workbench) (name : String) : Option Place :=
  bench.places.lookup name

def intern (bench : Workbench) (name : String) : Name × Workbench :=
  let (name, names) := bench.names.intern name
  (name, { bench with names := names })

def forgetHandle (bench : Workbench) (name : String) : Workbench :=
  let previous := bench.handle? name
  { bench with handles := bench.handles.erase name }.release previous.toList

def forgetPlace (bench : Workbench) (name : String) : Workbench :=
  let previous := bench.place? name
  let places := bench.places.filter (·.1 != name)
  { bench with places := places }.release (previous.toList.flatMap Place.handles)

def forgetSlot (bench : Workbench) (name : String) : Workbench :=
  let previous := bench.slots.get? name
  let bench := { bench with slots := bench.slots.erase name }
  (bench.onHeap fun heap => ((), heap.dropSlots previous.toList)).2

def frame? (bench : Workbench) (name : String) : Option ScopeFrame :=
  bench.frames.lookup name

/-- Hold a frame, in place of the one that had the name. -/
def keepFrame (bench : Workbench) (name : String) (frame : ScopeFrame) : Workbench :=
  { bench with frames := (name, frame) :: bench.frames.filter (·.1 != name) }

/-- Destroy a frame with its bindings. -/
def forgetFrame (bench : Workbench) (name : String) : Workbench :=
  let previous := bench.frame? name
  let bench := { bench with frames := bench.frames.filter (·.1 != name) }
  let slots := previous.toList.flatMap ScopeFrame.values
  (bench.onHeap fun heap => ((), heap.dropSlots slots)).2

/-- Answer with an object whose handle is given, and hold the handle. -/
def deliver (bench : Workbench) (target : String) (address : Address) :
    Reply × Workbench :=
  let snapshot := bench.heap.snapshot address
  let bench := bench.forgetHandle target
  (.value snapshot,
    { bench with
      handles := (target, address) :: bench.handles
      serials := (target, snapshot.serial) :: bench.serials.filter (·.1 != target) })

/-- Answer with another handle on an object, if there is one. -/
def share (bench : Workbench) (target : String) (address? : Option Address) :
    Reply × Workbench :=
  match address? with
  | none => (.nothing, bench)
  | some address =>
      let ((), bench) := bench.onHeap fun heap => ((), heap.retain address)
      bench.deliver target address

/-- Hold a new object, or answer with the failure to compute it. -/
def deliverScalar (bench : Workbench) (target : String) (result : Except Cause Scalar) :
    Reply × Workbench :=
  match result with
  | .error cause => (.failed (.of cause), bench)
  | .ok value =>
      let (address, bench) := bench.onHeap (·.newScalar value)
      bench.deliver target address

/-! ## Operations on held values -/

def withHandle (bench : Workbench) (name : String)
    (action : Address → Reply × Workbench) : Reply × Workbench :=
  match bench.handle? name with
  | some address => action address
  | none => (.unknownName, bench)

def withHandles (bench : Workbench) (left right : String)
    (action : Address → Address → Reply × Workbench) : Reply × Workbench :=
  bench.withHandle left fun leftAddress =>
    bench.withHandle right fun rightAddress => action leftAddress rightAddress

def withPlace (bench : Workbench) (name : String)
    (action : Place → Reply × Workbench) : Reply × Workbench :=
  match bench.place? name with
  | some place => action place
  | none => (.unknownName, bench)

def payload (bench : Workbench) (address : Address) : Payload :=
  (bench.heap.payload? address).getD (.scalar .none)

def arithmetic (bench : Workbench) (target : String) (operator : ArithmeticOperator)
    (left right : Address) : Reply × Workbench :=
  bench.deliverScalar target
    (ScriptEngine.arithmetic operator (bench.payload left) (bench.payload right))

def unary (bench : Workbench) (target : String) (operator : UnaryOperator)
    (operand : Address) : Reply × Workbench :=
  match unaryResult operator (bench.payload operand) with
  | .error cause => (.failed (.of cause), bench)
  | .ok none => bench.share target (some operand)
  | .ok (some value) => bench.deliverScalar target (.ok value)

def cast (bench : Workbench) (target : String) (source : Address) (type : StaticType) :
    Reply × Workbench :=
  match conversion (bench.payload source) type with
  | .error cause => (.failed (.of cause), bench)
  | .ok (.computed value) => bench.deliverScalar target (.ok value)
  | .ok .duplicate =>
      let (address, bench) := bench.onHeap (·.copy source)
      bench.deliver target address

/-! ## Places and slots -/

/-- Hold a place, of which the handles are given. -/
def keepPlace (bench : Workbench) (name : String) (place : Place) (variableName : String) :
    Reply × Workbench :=
  let bench := bench.forgetPlace name
  (.place place variableName, { bench with places := (name, place) :: bench.places })

/-- Hold a place inside a container, with a new handle on it. -/
def keepInnerPlace (bench : Workbench) (name : String) (container : Address)
    (place : Place) : Reply × Workbench :=
  let ((), bench) := bench.onHeap fun heap => ((), heap.retain container)
  bench.keepPlace name place ""

def locate (bench : Workbench) (name : String) (container key : Address)
    (access : Access) : Reply × Workbench :=
  let (result, bench) := bench.onHeap fun heap =>
    (heap.retain key).locate container key access
  match result with
  | .error cause => (.failed (.of cause), bench)
  | .ok place => bench.keepPlace name place ""

def read (bench : Workbench) (target : String) (container key : Address) :
    Reply × Workbench :=
  let (result, bench) := bench.onHeap fun heap =>
    (heap.retain key).readElement container key
  match result with
  | .error cause => (.failed (.of cause), bench)
  | .ok address => bench.deliver target address

/-- Store another handle on an object in a place, holding the object that
was there. -/
def store (bench : Workbench) (place : Place) (source : Address) (target : String) :
    Reply × Workbench :=
  let (result, bench) := bench.onStorage fun scopes heap =>
    place.store scopes (heap.retain source) source
  match result with
  | .error cause => (.failed (.of cause), bench.release [source])
  | .ok previous => bench.deliver target previous

def newSlot (bench : Workbench) (slot : String) (source : Address) : Reply × Workbench :=
  let ((), bench) := bench.onHeap fun heap =>
    ((), (heap.retain source).enterSlot source)
  let bench := bench.forgetSlot slot
  (.nothing, { bench with slots := (slot, source) :: bench.slots })

def replaceSlot (bench : Workbench) (slot : String) (source : Address) (target : String) :
    Reply × Workbench :=
  match bench.slots.get? slot with
  | none => (.unknownName, bench)
  | some previous =>
      let ((), bench) := bench.onHeap fun heap =>
        ((), ((heap.retain source).enterSlot source).leaveSlot previous)
      { bench with slots := (slot, source) :: bench.slots.erase slot }.deliver target previous

/-- Take slots out of those that are held by name. -/
def takeSlots (slots : Holdings) : List String → Option (List Address × Holdings)
  | [] => some ([], slots)
  | name :: others => do
      let address ← slots.get? name
      let (addresses, slots) ← takeSlots (slots.erase name) others
      return (address :: addresses, slots)

def takeEntries (slots : Holdings) :
    List (String × String) → Option (List (Address × Address) × Holdings)
  | [] => some ([], slots)
  | (key, value) :: others => do
      let keyAddress ← slots.get? key
      let slots := slots.erase key
      let valueAddress ← slots.get? value
      let (entries, slots) ← takeEntries (slots.erase value) others
      return ((keyAddress, valueAddress) :: entries, slots)

namespace Assembly

def type : Assembly → StaticType
  | .vector element _ => .vector element
  | .dict key value _ => .dict key value

/-- The payload that slots make, and the slots that are left. No slot is used twice,
since each is taken out. -/
def payload? (slots : Holdings) : Assembly → Option (Payload × Holdings)
  | .vector _ elements =>
      (takeSlots slots elements).map fun (addresses, slots) => (.vector addresses, slots)
  | .dict _ _ entries =>
      (takeEntries slots entries).map fun (pairs, slots) => (.dict pairs, slots)

end Assembly

/-- Make a container, into which slots move as they are. -/
def assemble (bench : Workbench) (target : String) (assembly : Assembly) : Reply × Workbench :=
  match assembly.payload? bench.slots with
  | none => (.unknownName, bench)
  | some (payload, slots) =>
      let (address, bench) := bench.onHeap (·.allocate assembly.type payload)
      { bench with slots := slots }.deliver target address

/-! ## Frames -/

def withFrame (bench : Workbench) (name : String)
    (action : ScopeFrame → Reply × Workbench) : Reply × Workbench :=
  match bench.frame? name with
  | some frame => action frame
  | none => (.unknownName, bench)

def declareIn (bench : Workbench) (frameName : String) (frame : ScopeFrame) (name : String)
    (value : Address) : Reply × Workbench :=
  let (name, bench) := bench.intern name
  let (frame, bench) := bench.onHeap fun heap =>
    frame.declare (heap.retain value) name value
  (.nothing, bench.keepFrame frameName frame)

/-! ## Zones -/

def useZone (bench : Workbench) (number : Fin 2) : Workbench :=
  { bench with heap := { bench.heap with zone := bench.zones[number] } }

/-- Put a new zone under a number; the objects of the old one live on. -/
def resetZone (bench : Workbench) (number : Fin 2) : Workbench :=
  let inUse := bench.heap.zone
  let replaced := bench.zones[number]
  let heap := bench.heap.openZone
  let opened := heap.zone
  { bench with
    zones := bench.zones.set number opened
    heap := { heap with zone := if inUse = replaced then opened else inUse } }

/-! ## Calls -/

def callSummary (bench : Workbench) (frame : CallFrame) : CallSummary where
  function := bench.names.lookup frame.function
  callSite := frame.callSite
  scopeBase := frame.scopeBase
  loopBase := frame.loopBase
  returned := frame.returned
  result := frame.result.map bench.heap.snapshot

/-- Replace the calls, destroying the frames from the innermost outwards. -/
def newCalls (bench : Workbench) (limit : Option Nat) : Workbench :=
  let frames := bench.calls.frames.toList.reverse
  let ((), bench) := bench.onHeap fun heap =>
    ((), frames.foldl (fun heap frame => frame.discard heap) heap)
  { bench with calls := { limit := limit } }

def pushCall (bench : Workbench) (name : String) (callSite : Span)
    (scopeBase loopBase : Nat) : Reply × Workbench :=
  let (name, bench) := bench.intern name
  match bench.calls.exceeded? with
  | some limit => (.failed (.of (.stackOverflow limit)), bench)
  | none =>
      let calls := bench.calls.push {
        function := name
        callSite := callSite
        scopeBase := scopeBase
        loopBase := loopBase }
      (.number calls.depth, { bench with calls := calls })

def popCall (bench : Workbench) : Reply × Workbench :=
  match bench.calls.current? with
  | none => (.call none, bench)
  | some frame =>
      let summary := bench.callSummary frame
      let bench := { bench with calls := bench.calls.pop }
      let ((), bench) := bench.onHeap fun heap => ((), frame.discard heap)
      (.call (some summary), bench)

def setResult (bench : Workbench) (source : Address) : Reply × Workbench :=
  match bench.calls.current? with
  | none => (.nothing, bench)
  | some frame =>
      let (frame, bench) := bench.onHeap fun heap =>
        frame.setResult (heap.retain source) source
      (.nothing, { bench with calls := bench.calls.modifyCurrent fun _ => frame })

def takeResult (bench : Workbench) (target : String) : Reply × Workbench :=
  match bench.calls.current? with
  | none => (.nothing, bench)
  | some frame =>
      let (result, bench) := bench.onHeap fun heap =>
        let (result, frame, heap) := frame.takeResult heap
        ((result, frame), heap)
      let bench := { bench with calls := bench.calls.modifyCurrent fun _ => result.2 }
      match result.1 with
      | none => (.nothing, bench)
      | some address => bench.deliver target address

/-! ## Commands -/

def perform (bench : Workbench) : Command → Reply × Workbench
  | .create target description =>
      if description.isKnown bench.handles then
        let handles := bench.handles
        let (address, bench) := bench.onHeap fun heap => description.allocate handles heap
        bench.deliver target address
      else (.unknownName, bench)
  | .handle target source =>
      bench.withHandle source fun address => bench.share target (some address)
  | .copy target source =>
      bench.withHandle source fun address =>
        let (address, bench) := bench.onHeap (·.copy address)
        bench.deliver target address
  | .default target type =>
      let (address, bench) := bench.onHeap (·.newDefault type)
      bench.deliver target address
  | .drop name => bench.withHandle name fun _ => (.nothing, bench.forgetHandle name)
  | .show name =>
      bench.withHandle name fun address => (.value (bench.heap.snapshot address), bench)
  | .quote name =>
      bench.withHandle name fun address => (.text (bench.heap.render true address), bench)
  | .outline name =>
      bench.withHandle name fun address => (.text (bench.heap.outline address), bench)
  | .equals left right =>
      bench.withHandles left right fun left right =>
        (.truth (bench.heap.equals left right), bench)
  | .same left right =>
      bench.withHandles left right fun left right => (.truth (left == right), bench)
  | .inspect name =>
      bench.withHandle name fun address => (.payload (bench.payload address), bench)
  | .element target source position =>
      bench.withHandle source fun address =>
        bench.share target (bench.heap.element? address position)
  | .find target source key =>
      bench.withHandles source key fun source key =>
        bench.share target (bench.heap.valueOf? source key)
  | .useZone number => (.nothing, bench.useZone number)
  | .resetZone number => (.nothing, bench.resetZone number)
  | .sweep =>
      let (count, bench) := bench.onHeap Heap.sweep
      (.number count, bench)
  | .live => (.number bench.heap.liveCount, bench)
  | .isLive name =>
      match bench.serials.lookup name with
      | some serial => (.truth (bench.heap.isLive serial), bench)
      | none => (.unknownName, bench)
  | .newSlot slot source => bench.withHandle source fun address => bench.newSlot slot address
  | .readSlot target slot =>
      match bench.slots.get? slot with
      | some address => bench.share target (some address)
      | none => (.unknownName, bench)
  | .replaceSlot slot source target =>
      bench.withHandle source fun address => bench.replaceSlot slot address target
  | .outlineSlot slot =>
      match bench.slots.get? slot with
      | some address => (.text ("Slot(" ++ bench.heap.outline address ++ ")"), bench)
      | none => (.unknownName, bench)
  | .dropSlot slot =>
      match bench.slots.get? slot with
      | some _ => (.nothing, bench.forgetSlot slot)
      | none => (.unknownName, bench)
  | .assemble target assembly => bench.assemble target assembly
  | .arithmetic target operator left right =>
      bench.withHandles left right fun left right =>
        bench.arithmetic target operator left right
  | .compare operator left right =>
      bench.withHandles left right fun left right =>
        match bench.heap.comparison operator left right with
        | .ok holds => (.truth holds, bench)
        | .error cause => (.failed (.of cause), bench)
  | .unary target operator operand =>
      bench.withHandle operand fun address => bench.unary target operator address
  | .cast target source type =>
      bench.withHandle source fun address => bench.cast target address type
  | .position key length =>
      bench.withHandle key fun address =>
        match vectorPosition (bench.payload address) length with
        | .ok position => (.number position, bench)
        | .error cause => (.failed (.of cause), bench)
  | .read target container key =>
      bench.withHandles container key fun container key => bench.read target container key
  | .locate place container key access =>
      bench.withHandles container key fun container key =>
        bench.locate place container key access
  | .elementPlace place container position =>
      bench.withHandle container fun address =>
        bench.keepInnerPlace place address (.element address position)
  | .entryPlace place container position =>
      bench.withHandle container fun address =>
        bench.keepInnerPlace place address (.entry address position)
  | .bindingPlace place depth name =>
      let (symbol, bench) := bench.intern name
      bench.keepPlace place (.binding depth symbol) name
  | .load target place =>
      bench.withPlace place fun place =>
        match place.load bench.scopes bench.heap with
        | .ok address => bench.share target (some address)
        | .error cause => (.failed (.of cause), bench)
  | .store place source target =>
      bench.withPlace place fun place =>
        bench.withHandle source fun address => bench.store place address target
  | .dropPlace place => bench.withPlace place fun _ => (.nothing, bench.forgetPlace place)
  | .pushScope =>
      let scopes := bench.scopes.push
      (.number scopes.depth, { bench with scopes := scopes })
  | .popScope =>
      let ((), bench) := bench.onStorage fun scopes heap => ((), scopes.pop heap)
      (.number bench.scopes.depth, bench)
  | .truncate depth =>
      let ((), bench) := bench.onStorage fun scopes heap => ((), scopes.truncate heap depth)
      (.number bench.scopes.depth, bench)
  | .declare name source =>
      bench.withHandle source fun address =>
        let (name, bench) := bench.intern name
        let ((), bench) := bench.onStorage fun scopes heap =>
          ((), scopes.declare (heap.retain address) name address)
        (.nothing, bench)
  | .resolve name floor =>
      let (name, bench) := bench.intern name
      (.optionalNumber (bench.scopes.resolve? name floor), bench)
  | .lookup target name floor =>
      let (name, bench) := bench.intern name
      bench.share target (bench.scopes.lookup? name floor)
  | .getBinding target depth name =>
      let (name, bench) := bench.intern name
      bench.share target (bench.scopes.get? depth name)
  | .replaceBinding depth name source target =>
      bench.withHandle source fun address =>
        let (name, bench) := bench.intern name
        match bench.scopes.get? depth name with
        | none => (.nothing, bench)
        | some _ => bench.store (.binding depth name) address target
  | .skipFrom depth =>
      let scopes := bench.scopes.skipFrom depth
      (.truth scopes.innermost.skipsRest, { bench with scopes := scopes })
  | .scopeInfo => (.scopes bench.scopes.depth bench.scopes.innermost, bench)
  | .newFrame frame => (.nothing, (bench.forgetFrame frame).keepFrame frame {})
  | .declareIn frameName name source =>
      bench.withFrame frameName fun frame =>
        bench.withHandle source fun address => bench.declareIn frameName frame name address
  | .readFrame target frameName name =>
      bench.withFrame frameName fun frame =>
        let (name, bench) := bench.intern name
        bench.share target (frame.get? name)
  | .frameSize frameName =>
      bench.withFrame frameName fun frame => (.number frame.size, bench)
  | .dropFrame frameName =>
      bench.withFrame frameName fun _ => (.nothing, bench.forgetFrame frameName)
  | .newCalls limit => (.optionalNumber limit, bench.newCalls limit)
  | .pushCall name callSite scopeBase loopBase =>
      bench.pushCall name callSite scopeBase loopBase
  | .popCall => bench.popCall
  | .setResult source => bench.withHandle source fun address => bench.setResult address
  | .takeResult target => bench.takeResult target
  | .callInfo =>
      (.calls bench.calls.depth bench.calls.limit
        (bench.calls.current?.map bench.callSummary), bench)
  | .capture => (.backtrace (bench.calls.backtrace bench.names), bench)
  | .attach failure =>
      let first := bench.calls.attach bench.names failure
      (.attached first (bench.calls.attach bench.names first), bench)
  | .pushLoop scopeDepth =>
      let loops := bench.loops.push { scopeDepth := scopeDepth }
      (.number loops.depth, { bench with loops := loops })
  | .popLoop =>
      (.loop (bench.loops.innermost? 0), { bench with loops := bench.loops.pop })
  | .innermostLoop base => (.loop (bench.loops.innermost? base), bench)
  | .breakLoop base =>
      match bench.loops.break? base with
      | some loops => (.truth true, { bench with loops := loops })
      | none => (.truth false, bench)

end Workbench

end ScriptEngine
