import ScriptEngine.Proofs.Hosting.Sessions

/-!
# Accounts of sessions

Between two requests nothing has leaked and nothing is gone too early: the
objects that live are those that the root frame, the cached literals and the
held handles lead to.
-/

namespace ScriptEngine

namespace Ledger

variable {licence : Licence}

/-- Values built around held objects are as orderly as others. -/
theorem Orderly.describing : Describing true Orderly := by
  intro ledger holdings descriptions shared _ orderly
  obtain ⟨balanced, separated, tidy⟩ := orderly
  have held : ∀ {name address}, holdings.get? name = some address → address ∈ ledger.shared :=
    fun found => shared _ _ found
  have counted := Heap.Balanced.crafting ledger.scopes.bound ledger.handles
  have lendsCounted : Heap.Crafting.Lends
      (fun heap pending owned =>
        heap.Balanced (pending + ledger.scopes.bound) (owned + ledger.handles))
      holdings (Description.namesAll descriptions) := by
    intro name _ address found heap pending owned kept
    rw [Multiset.cons_add]
    apply kept.retain
    simp [handles, held found]
  have apart := Heap.Separated.crafting_lent ledger.kept ledger.lent
  have lendsApart : Heap.Crafting.Lends
      (fun heap pending owned => heap.Separated ledger.kept (pending + (owned + ledger.lent)))
      holdings (Description.namesAll descriptions) := by
    intro name _ address found heap pending owned kept
    apply kept.remains (Heap.Remains.retain heap address) le_rfl
    intro other member
    rw [Multiset.cons_add, Multiset.add_cons, Multiset.mem_cons] at member
    rcases member with rfl | member
    · simp [lent, held found]
    · exact member
  constructor
  · refine ⟨balanced.distinct, ?_⟩
    have started : ledger.heap.Balanced (0 + ledger.scopes.bound) (0 + ledger.handles) := by
      rw [zero_add, zero_add]
      exact balanced.heap
    have built := counted.describeAll descriptions lendsCounted started
    simpa [handles, Hand.shareAll, add_assoc, add_left_comm] using built
  · constructor
    · have started : ledger.heap.Separated ledger.kept (0 + (0 + ledger.lent)) := by
        rw [zero_add, zero_add]
        exact separated.heap
      have built := apart.describeAll descriptions lendsApart started
      simpa [kept, lent, Hand.shareAll, add_assoc] using built
    · apply (Heap.Plain.crafting ledger.literals).describeAll descriptions _ separated.literals
      · intro name _ address _ heap pending owned plain
        exact plain.remains (Heap.Remains.retain heap address)
      · exact 0
      · exact 0
  · refine ⟨?_, tidy.literals⟩
    apply (Heap.Tidy.crafting ledger.results).describeAll descriptions _ tidy.heap
    · intro name _ address _ heap pending owned kept
      exact kept.retain address
    · exact 0
    · exact 0

theorem Since.describing (size : Nat) (literals : Multiset Address) :
    Describing true (Since size literals) := by
  intro ledger holdings descriptions _ _ since
  refine since.grow ?_ rfl
  apply (Heap.Crafting.sized ledger.heap.cells.size).describeAll descriptions _ le_rfl
  · intro name _ address _ heap pending owned sized
    exact sized.trans (Heap.Remains.retain heap address).size
  · exact 0
  · exact 0

theorem Orderly.hosted {careless : Prop} : Hosted true careless Orderly :=
  ⟨Orderly.step, Orderly.describing, fun orderly => orderly.balanced⟩

end Ledger

namespace Session

variable {careless : Prop} {session : Session}

/-- The literals that are cached. -/
def cached (session : Session) : List Address :=
  session.state.literals.toList.reduceOption

/-- What the root frame binds and what the host holds. -/
def holdings (session : Session) : Multiset Address :=
  session.state.scopes.root.values + (session.held.map Prod.snd : List Address)

/-- All that a session refers to. -/
def roots (session : Session) : Multiset Address :=
  session.holdings + session.cached

/-- Nothing has leaked, and nothing is gone that is still referred to. -/
structure Accounted (session : Session) : Prop where
  living : ∀ address, address ∈ session.state.heap.living ↔
    session.state.heap.Reaches session.roots address
  reported : session.state.heap.liveCount = session.state.heap.living.length
  listed : ∀ serial, session.state.heap.isLive serial = true ↔
    ∃ address, session.state.heap.Reaches session.roots address ∧
      session.state.heap.serial address = serial
  unpinned : ∀ address, session.state.heap.isPinned address = false
  exceeds : session.state.literalCount ≤ session.state.heap.liveCount
  counted : session.state.liveCount =
    (session.state.heap.living.filter (· ∉ session.cached)).length
  swept : session.state.heap.sweep = (0, session.state.heap)

theorem Upholds.bound {property : Ledger → Prop} (upholds : session.Upholds careless property) :
    session.state.scopes.bound = (session.state.scopes.root.values : Multiset Address) := by
  simp [Scopes.bound, Scopes.frames, upholds.idle.nested]

theorem Upholds.balanced (upholds : session.Upholds careless Ledger.Orderly) :
    session.state.heap.Balanced session.state.scopes.root.values
      ((session.held.map Prod.snd : List Address) + session.cached) := by
  have balanced := upholds.ledger.balanced.heap
  simpa [Session.ledger, State.ledger, Ledger.handles, hand, cached, upholds.bound,
    upholds.idle.results] using balanced

theorem Upholds.accounted (upholds : session.Upholds careless Ledger.Orderly) : session.Accounted := by
  have balanced := upholds.balanced
  have separated := upholds.ledger.separated.heap
  have tidy := upholds.ledger.tidy
  have heapTidy : session.state.heap.Tidy session.ledger.results := tidy.heap
  have reported : session.state.heap.liveCount = session.state.heap.living.length :=
    heapTidy.liveCount_eq
  have distinct : session.cached.Nodup := Multiset.coe_nodup.mp tidy.literals
  have living : ∀ address ∈ session.cached, address ∈ session.state.heap.living := by
    intro address member
    rw [Heap.mem_living]
    apply balanced.alive
    simp [member]
  have literals : session.state.literalCount = session.cached.length := by
    rw [State.literalCount, cached, List.reduceOption_length_eq, ← List.countP_eq_length_filter,
      Array.countP_toList]
  have split : session.cached.length +
      (session.state.heap.living.filter (· ∉ session.cached)).length =
        session.state.heap.living.length := by
    have members : (session.state.heap.living.filter (· ∈ session.cached)).length =
        session.cached.length := by
      apply List.Perm.length_eq
      rw [List.perm_ext_iff_of_nodup ((Heap.nodup_living _).filter _) distinct]
      intro address
      rw [List.mem_filter, decide_eq_true_iff]
      exact ⟨fun both => both.2, fun member => ⟨living address member, member⟩⟩
    have parts := List.length_eq_length_filter_add
      (fun address => decide (address ∈ session.cached)) (l := session.state.heap.living)
    simp only [decide_not] at parts ⊢
    omega
  have reaches : ∀ address, (∃ object, session.state.heap.get? address = some object) ↔
      session.state.heap.Reaches session.roots address := by
    intro address
    constructor
    · rintro ⟨object, alive⟩
      have reached := balanced.reaches_of_alive separated alive
      rwa [← add_assoc] at reached
    · intro reached
      apply balanced.alive_of_reaches
      rwa [← add_assoc]
  constructor
  · intro address
    rw [Heap.mem_living, reaches]
  · exact reported
  · intro serial
    rw [heapTidy.isLive_iff]
    constructor
    · rintro ⟨address, object, alive, same⟩
      refine ⟨address, (reaches address).mp ⟨object, alive⟩, ?_⟩
      simpa [Heap.serial, alive] using same
    · rintro ⟨address, reached, same⟩
      obtain ⟨object, alive⟩ := (reaches address).mpr reached
      refine ⟨address, object, alive, ?_⟩
      simpa [Heap.serial, alive] using same
  · intro address
    unfold Heap.isPinned
    cases found : session.state.heap.get? address with
    | none => rfl
    | some object =>
        cases pinned : object.pinned with
        | false => exact pinned
        | true =>
            have kept := heapTidy.pinned found pinned
            simp [Session.ledger, State.ledger, upholds.idle.results] at kept
  · rw [literals, reported]
    omega
  · rw [State.liveCount, literals, reported]
    omega
  · exact balanced.sweep_eq

/-! ## What leaves the count as it is -/

/-- No root binding is different, and nothing in a value that is bound there or
held. -/
structure Unaltered (before after : Session) : Prop where
  bindings : after.state.scopes.root.bindings = before.state.scopes.root.bindings
  held : after.held = before.held
  contents : ∀ {address}, before.state.heap.Reaches before.holdings address →
    after.state.heap.payload? address = before.state.heap.payload? address

/-- What is reached from bindings and held handles and is no literal. -/
theorem Upholds.mem_uncached_iff (upholds : session.Upholds careless Ledger.Orderly) {address : Address} :
    address ∈ session.state.heap.living.filter (· ∉ session.cached) ↔
      session.state.heap.Reaches session.holdings address ∧ address ∉ session.cached := by
  rw [List.mem_filter, upholds.accounted.living, decide_eq_true_iff]
  constructor
  · rintro ⟨reached, uncached⟩
    refine ⟨?_, uncached⟩
    exact (reached.of_plain upholds.ledger.separated.literals).resolve_right uncached
  · rintro ⟨reached, uncached⟩
    exact ⟨reached.mono fun member => Multiset.mem_add.mpr (Or.inl member), uncached⟩

/-- Requests that alter nothing that is bound or held leave as many objects
alive as before, whatever they ran, failed or not. -/
theorem Runs.liveCount_eq {later : List (Nat × Request)} {after : Session}
    (runs : Runs session later after) (upholds : session.Upholds careless Ledger.Orderly)
    (unaltered : session.Unaltered after) :
    after.state.liveCount = session.state.liveCount := by
  have hosted : Ledger.Hosted true careless fun ledger =>
      ledger.Orderly ∧ ledger.Since session.state.heap.cells.size session.cached := by
    constructor
    · intro before after step both
      exact ⟨Ledger.Orderly.step step both.1, Ledger.Since.step _ _ step both.2⟩
    · intro ledger holdings descriptions shared nameless both
      exact ⟨Ledger.Orderly.describing _ _ _ shared nameless both.1,
        Ledger.Since.describing _ _ _ _ _ shared nameless both.2⟩
    · exact fun both => both.1.balanced
  have started : session.Upholds careless fun ledger =>
      ledger.Orderly ∧ ledger.Since session.state.heap.cells.size session.cached :=
    ⟨upholds.abides, ⟨upholds.ledger, le_rfl, fun _ member => member, fun _ => Or.inl⟩,
      upholds.idle, upholds.distinct⟩
  have ended := runs.upholds hosted (by simp) started
  have orderly : after.Upholds careless Ledger.Orderly :=
    ⟨ended.abides, ended.ledger.1, ended.idle, ended.distinct⟩
  obtain ⟨_, kept, younger⟩ := ended.ledger.2
  have sameHoldings : after.holdings = session.holdings := by
    simp only [holdings, ScopeFrame.values, unaltered.bindings, unaltered.held]
  have members : ∀ address,
      address ∈ after.state.heap.living.filter (· ∉ after.cached) ↔
        address ∈ session.state.heap.living.filter (· ∉ session.cached) := by
    intro address
    rw [orderly.mem_uncached_iff, upholds.mem_uncached_iff, sameHoldings]
    constructor
    · rintro ⟨reached, uncached⟩
      refine ⟨reached.transport_back unaltered.contents, ?_⟩
      intro cached
      exact uncached (kept address cached)
    · rintro ⟨reached, uncached⟩
      refine ⟨reached.transport unaltered.contents, ?_⟩
      intro cached
      rcases younger address cached with before | young
      · exact uncached before
      · have alive := (upholds.accounted.living address).mpr
          (reached.mono fun member => Multiset.mem_add.mpr (Or.inl member))
        obtain ⟨object, found⟩ := Heap.mem_living.mp alive
        exact absurd (Heap.lt_size_of_get?_eq_some found) (Nat.not_lt_of_le young)
  rw [orderly.accounted.counted, upholds.accounted.counted]
  apply List.Perm.length_eq
  rw [List.perm_ext_iff_of_nodup ((Heap.nodup_living _).filter _)
    ((Heap.nodup_living _).filter _)]
  exact members

/-- After any requests a session is accounted for, and further ones that alter
nothing that is bound or held, a call among them, do not change the count. -/
theorem Runs.nothing_leaks {program : Program} {builtins : BuiltinTable} {sink : Sink}
    {limit : Option Nat} (lawful : builtins.Lawful) {requests : List (Nat × Request)}
    (runs : Runs (start program builtins sink limit) requests session) :
    session.Accounted ∧
      ∀ {later : List (Nat × Request)} {after : Session}, Runs session later after →
        session.Unaltered after → after.state.liveCount = session.state.liveCount := by
  have upholds := runs.upholds Ledger.Orderly.hosted (by simp)
    (start_upholds lawful Ledger.Orderly.blank)
  refine ⟨upholds.accounted, ?_⟩
  intro later after continued unaltered
  exact continued.liveCount_eq upholds unaltered

/-- A program that binds a variable, and a function that copies a vector and then reads
past its end. -/
def overreaching : Program where
  expressions :=
    #[⟨.literal (.int 5), .empty⟩, ⟨.reference ⟨0⟩, .empty⟩, ⟨.literal (.int 9), .empty⟩,
      ⟨.index ⟨1⟩ [⟨2⟩], .empty⟩]
  statements :=
    #[⟨.declare ⟨1⟩ (some ⟨0⟩), .empty⟩, ⟨.declare ⟨1⟩ (some ⟨1⟩), .empty⟩,
      ⟨.expression ⟨3⟩, .empty⟩]
  functions :=
    #[⟨.empty, [⟨⟨0⟩, .vector .int⟩], .none, ⟨[⟨1⟩, ⟨2⟩], .empty⟩, .empty⟩]

/-- While a variable is bound and a vector is held, a call that is lent the vector makes
three objects and then fails. Only the literal among them lives on, and it is not counted. -/
theorem Runs.nothing_leaks_overreaching :
    ∃ session report after,
      Runs (start overreaching .standard .silent none)
        [(9, .run [⟨0⟩]), (9, .create "v" (.vector .int [.scalar (.int 1)]))] session ∧
      session.step 9 (.call ⟨0⟩ [.held "v"] none) = .ok (report, after) ∧
      (∃ failure, report.reply = .failed failure) ∧
      after.state.heap.cells.size = session.state.heap.cells.size + 3 ∧
      session.Accounted ∧ after.Accounted ∧
      session.state.liveCount = 2 ∧ after.state.liveCount = 2 := by
  have ran : ((start overreaching .standard .silent none).step 9 (.run [⟨0⟩])).toOption.any
      (fun declared => (declared.2.step 9
        (.create "v" (.vector .int [.scalar (.int 1)]))).toOption.any fun created =>
      (created.2.step 9 (.call ⟨0⟩ [.held "v"] none)).toOption.any fun called =>
        (match called.1.reply with
          | .failed _ => true
          | _ => false) &&
        called.2.state.heap.cells.size = created.2.state.heap.cells.size + 3 &&
        created.2.state.liveCount = 2 &&
        called.2.state.scopes.root.bindings = created.2.state.scopes.root.bindings &&
        called.2.held = created.2.held &&
        created.2.state.heap.living.all fun address =>
          called.2.state.heap.payload? address = created.2.state.heap.payload? address) = true := by
    decide +kernel
  obtain ⟨_, _, declared, ran⟩ := exists_step_of_any ran
  obtain ⟨_, session, created, ran⟩ := exists_step_of_any ran
  obtain ⟨report, after, called, ran⟩ := exists_step_of_any ran
  simp only [Bool.and_eq_true, decide_eq_true_eq, List.all_eq_true] at ran
  obtain ⟨⟨⟨⟨⟨failed, made⟩, count⟩, bindings⟩, held⟩, contents⟩ := ran
  have runs := Runs.cons declared (.cons created (.nil session))
  obtain ⟨accounted, unleaked⟩ := Runs.nothing_leaks BuiltinTable.standard_lawful runs
  have unaltered : session.Unaltered after := by
    refine ⟨bindings, held, ?_⟩
    intro address reached
    apply contents
    rw [accounted.living]
    exact reached.mono fun member => Multiset.mem_add.mpr (Or.inl member)
  have sameCount := unleaked (.cons called (.nil after)) unaltered
  have whole := Runs.cons declared (.cons created (.cons called (.nil after)))
  have balanced := (Runs.nothing_leaks BuiltinTable.standard_lawful whole).1
  refine ⟨session, report, after, runs, called, ?_, made, accounted, balanced, count, ?_⟩
  · split at failed
    · exact ⟨_, ‹_›⟩
    · cases failed
  · rw [sameCount, count]

end Session

end ScriptEngine
