import ScriptEngine.Proofs.Abreast.Descriptions
import ScriptEngine.Proofs.Abreast.Uncached
import ScriptEngine.Proofs.Hosting.Accounts

/-!
# Sessions side by side

A session whose interpreter keeps literals and one whose interpreter makes them anew
answer the same requests alike: what they hold under a name is linked, and so is what
they bind.  The numbers of objects may be different, and whether two of them are one.
-/

namespace ScriptEngine

open Evaluation

/-! ## What hosts hold -/

namespace Keepings

/-- The handles that hosts have on what they hold. -/
def hands (held : Keepings) : Hands where
  owned := 0
  shared := (held.map Prod.snd : List (Address × Address))

def erase (held : Keepings) (name : String) : Keepings :=
  held.filter (·.1 != name)

variable (held : Keepings) (name : String)

theorem left_erase : (held.erase name).left = held.left.erase name := by
  rw [left, left, Holdings.erase, List.filter_map]
  rfl

theorem right_erase : (held.erase name).right = held.right.erase name := by
  rw [right, right, Holdings.erase, List.filter_map]
  rfl

variable {held}

theorem mem_of_lookup {pair : Address × Address} (found : held.lookup name = some pair) :
    (name, pair) ∈ held := by
  obtain ⟨earlier, later, split, _⟩ := List.lookup_eq_some_iff.mp found
  simp [split]

theorem has_of_mem {entry : String × (Address × Address)} (member : entry ∈ held) :
    held.hands.Has entry.2.1 entry.2.2 :=
  Or.inr (Multiset.mem_coe.mpr (List.mem_map.mpr ⟨entry, member, rfl⟩))

theorem shared_of_get?_left {address : Address} (found : held.left.get? name = some address) :
    address ∈ held.hands.left.shared := by
  rw [get?_left, Option.map_eq_some_iff] at found
  obtain ⟨pair, named, rfl⟩ := found
  exact Hands.mem_left_of_shared (List.mem_map.mpr ⟨(name, pair), mem_of_lookup name named, rfl⟩)

theorem shared_of_get?_right {address : Address} (found : held.right.get? name = some address) :
    address ∈ held.hands.right.shared := by
  rw [get?_right, Option.map_eq_some_iff] at found
  obtain ⟨pair, named, rfl⟩ := found
  exact Hands.mem_right_of_shared (List.mem_map.mpr ⟨(name, pair), mem_of_lookup name named, rfl⟩)

/-- What is held under a name is linked, or nothing is. -/
theorem has_of_lookup {pair : Address × Address} (found : held.lookup name = some pair) :
    held.hands.Has pair.1 pair.2 :=
  has_of_mem (mem_of_lookup name found)

/-- The handle of a name, and those of the other names. -/
theorem hands_split (distinct : (held.map Prod.fst).Nodup) :
    held.hands = (held.erase name).hands.shareAll (held.lookup name).toList := by
  have split := Multiset.coe_eq_coe.mpr (perm_of_lookup distinct name)
  rw [← Multiset.coe_add] at split
  simp only [hands, Hands.shareAll, split, erase]

end Keepings

/-- Described values leave what there is alone. -/
theorem Heap.Survives.describeAll (holdings : Holdings) (heap : Heap)
    (descriptions : List Description) :
    Survives heap (Description.allocateAll holdings heap descriptions).2 := by
  apply (Survives.crafting heap).describeAll descriptions _ (.refl heap)
  · intro name _ address _ current _ _ survives
    exact survives.trans (Remains.retain current address).survives
  · exact 0
  · exact 0

variable {program : Program} {depth : Nat} {hands : Hands} {state other : State}

namespace Linked

/-- What is described alike is built alike, around what is held. -/
theorem describeAll {held : Keepings} (linked : Linked (.first program) depth held.hands state other)
    (descriptions : List Description) :
    ∃ pairs : List (Address × Address),
      (Description.allocateAll held.left state.heap descriptions).1 = pairs.map Prod.fst ∧
      (Description.allocateAll held.right other.heap descriptions).1 = pairs.map Prod.snd ∧
      Linked (.first program) depth (held.hands.shareAll pairs)
        { state with heap := (Description.allocateAll held.left state.heap descriptions).2 }
        { other with heap := (Description.allocateAll held.right other.heap descriptions).2 } := by
  obtain ⟨links, joined⟩ := linked.joined
  let slots := state.scopes.bound
  let handles := (state.ledger held.hands.left).handles
  let slots' := other.scopes.bound
  let handles' := (other.ledger held.hands.right).handles
  let kept : Links := fun first second =>
    links first second ∧ first ∈ slots + handles ∧ second ∈ slots' + handles'
  have referred : Heap.Referred kept slots handles slots' handles' := fun known => known.2
  have tandem : Heap.Tandem kept slots handles slots' handles' 0 state.heap other.heap := by
    refine ⟨?_, ?_, links, joined.agree, by simp, fun known => known.1⟩
    · rw [Multiset.map_zero, zero_add]
      exact linked.left.sound
    · rw [Multiset.map_zero, zero_add]
      exact linked.right.sound
  have has : ∀ {first second}, held.hands.Has first second → kept first second := fun held =>
    ⟨joined.has held, Multiset.mem_add.mpr (Or.inr (Hand.mem_handles state held.mem_left)),
      Multiset.mem_add.mpr (Or.inr (Hand.mem_handles other held.mem_right))⟩
  obtain ⟨pairs, firsts, seconds, built⟩ := Heap.Tandem.describeAll referred
    (fun _ member => has (Keepings.has_of_mem member)) descriptions tandem
  obtain ⟨links', agree, made, wider⟩ := built.joined
  have left : Holding Ledger.Orderly depth (held.hands.shareAll pairs).left
      { state with heap := (Description.allocateAll held.left state.heap descriptions).2 } := by
    rw [Hands.left_shareAll, ← firsts]
    exact ⟨Ledger.Orderly.describing (state.ledger held.hands.left) held.left descriptions
      (fun name _ => Keepings.shared_of_get?_left name) (by simp) linked.left.1, linked.left.2⟩
  have right : Holding Ledger.Orderly depth (held.hands.shareAll pairs).right
      { other with heap := (Description.allocateAll held.right other.heap descriptions).2 } := by
    rw [Hands.right_shareAll, ← seconds]
    exact ⟨Ledger.Orderly.describing (other.ledger held.hands.right) held.right descriptions
      (fun name _ => Keepings.shared_of_get?_right name) (by simp) linked.right.1, linked.right.2⟩
  refine ⟨pairs, firsts, seconds, ?_⟩
  have along := joined.along
  refine @advance (.first program) _ _ _ _
    (fun first second => kept first second ∨ (first, second) ∈ pairs) links' left right
    ⟨?_, ?_, along.loops, along.output⟩ ?_ ?_ agree ?_
  · apply along.scopes.imp
    intro first second bound bound' known
    exact Or.inl ⟨known, Multiset.mem_add.mpr (Or.inl bound), Multiset.mem_add.mpr (Or.inl bound')⟩
  · apply along.calls.imp
    intro first second result result' known
    exact Or.inl ⟨known, Multiset.mem_add.mpr (Or.inr (State.mem_handles_of_result result _)),
      Multiset.mem_add.mpr (Or.inr (State.mem_handles_of_result result' _))⟩
  · intro first second held
    exact (Hands.has_shareAll_iff.mp held).symm.imp_left has
  · exact linked.faithful.keep left rfl (Heap.Survives.describeAll _ _ _).steady
  · rintro first second ⟨known | inside, _⟩
    · exact wider known
    · exact made _ (Multiset.mem_add.mpr (Or.inl (Multiset.mem_coe.mpr inside)))

/-- What is printed is no business of the ledger. -/
theorem reprint {caching : Caching} {output output' : Output}
    (linked : Linked caching depth hands state other)
    (same : state.output = other.output → output = output') :
    Linked caching depth hands { state with output := output } { other with output := output' } := by
  have left : Holding Ledger.Orderly depth hands.left { state with output := output } :=
    linked.left
  have right : Holding Ledger.Orderly depth hands.right { other with output := output' } :=
    linked.right
  exact linked.survive left right rfl rfl (.refl _) (.refl _) fun joined =>
    have along := joined.along
    ⟨⟨along.scopes, along.calls, along.loops, same along.output⟩, joined.has⟩

end Linked

namespace Session

/-! ## Answers alike -/

/-- How an object with a number is shown. -/
def numbered (number : Nat) (contents : String) : String :=
  "Value#" ++ toString number ++ contents

/-- Answers that differ at most in the numbers of objects, in how many slots refer to them,
and in whether two of them are one. -/
inductive Reply.Alike : Reply → Reply → Prop where
  | done : Alike .done .done
  | value {snapshot other : Snapshot} :
      snapshot.tree = other.tree → Alike (.value snapshot) (.value other)
  | text (number other : Nat) (contents : String) :
      Alike (.text (numbered number contents)) (.text (numbered other contents))
  /-- Objects that are one without a cache are one with it. -/
  | comparison {identical identical' : Bool} (equal : Bool) :
      (identical' = true → identical = true) →
      Alike (.comparison identical equal) (.comparison identical' equal)
  | count (number : Nat) : Alike (.count number) (.count number)
  | failed (failure : Failure) : Alike (.failed failure) (.failed failure)
  | unknownName : Alike .unknownName .unknownName

/-- Reports with answers alike and the same text. -/
structure Report.Alike (report other : Report) : Prop where
  reply : report.reply.Alike other.reply
  printed : report.printed = other.printed

theorem outline_eq (heap : Heap) (address : Address) :
    heap.outline address = numbered (heap.serial address)
      ("(" ++ (heap.type address).text ++ ": " ++ heap.render true address ++ ")") := by
  simp [Heap.outline, numbered, String.append_assoc]

/-- Both give something, or both stop for one reason. -/
inductive Together {α : Type} (given : α → α → Prop) : Except Stop α → Except Stop α → Prop where
  | ok {result other : α} : given result other → Together given (.ok result) (.ok other)
  | error (reason : Stop) : Together given (.error reason) (.error reason)

/-! ## Requests with another evaluator -/

/-- Carry out a request with some evaluator and report what it answered and printed. -/
def stepWith (evaluator : Setup → Nat → Nested) (fuel : Nat) (session : Session)
    (request : Request) : Except Stop (Report × Session) :=
  let before := session.state.output.text.length
  match session.performWith evaluator fuel request with
  | .error reason => .error reason
  | .ok (reply, session) =>
      .ok (⟨reply, (session.state.output.text.drop before).toString⟩, session)

variable (session : Session) (fuel : Nat) (request : Request)

theorem stepWith_withFuel :
    session.stepWith Nested.withFuel fuel request = session.step fuel request := by
  rw [stepWith, performWith_withFuel]
  rfl

/-! ## Sessions side by side -/

/-- Two sessions that hold linked objects under the same names, in states that are linked. -/
structure Abreast (setup : Setup) (held : Keepings) (session other : Session) : Prop where
  setup_left : session.interpreter.setup = setup
  setup_right : other.interpreter.setup = setup
  left : session.held = held.left
  right : other.held = held.right
  distinct : (held.map Prod.fst).Nodup
  linked : Linked (.first setup.program) 0 held.hands session.state other.state

/-- Answers alike, by sessions that are side by side again. -/
def Answered (setup : Setup) (answer other : Reply × Session) : Prop :=
  answer.1.Alike other.1 ∧ ∃ held, Abreast setup held answer.2 other.2

/-- What two sessions are asked for by one request: what is lent is linked, and answers are
alike. -/
inductive Errand.Alike (setup : Setup) (held : Keepings) (session other : Session) :
    Errand → Errand → Prop where
  | run (code : Code) (keep : Option String) : Alike setup held session other (.run code keep)
      (.run code keep)
  | lend {pair : Address × Address} (keep : Option String) :
      Linked (.first setup.program) 0 (held.hands.share pair)
        { session.state with heap := session.state.heap.retain pair.1 }
        { other.state with heap := other.state.heap.retain pair.2 } →
      Alike setup held session other (.lend pair.1 keep) (.lend pair.2 keep)
  | build (description : Description) (name : String) :
      Alike setup held session other (.build description name) (.build description name)
  | drop (name : String) : Alike setup held session other (.drop name) (.drop name)
  | sweep : Alike setup held session other .sweep .sweep
  | clear : Alike setup held session other .clear .clear
  | answer {reply reply' : Reply} : reply.Alike reply' →
      Alike setup held session other (.answer reply) (.answer reply')

namespace Abreast

variable {setup : Setup} {held : Keepings} {session other : Session} {state state' : State}
  {pair : Address × Address}

theorem withState (abreast : Abreast setup held session other)
    (linked : Linked (.first setup.program) 0 held.hands state state') :
    Abreast setup held (session.withState state) (other.withState state') :=
  ⟨abreast.setup_left, abreast.setup_right, abreast.left, abreast.right, abreast.distinct, linked⟩

theorem answered {reply reply' : Reply} (abreast : Abreast setup held session other)
    (alike : reply.Alike reply') : Answered setup (reply, session) (reply', other) :=
  ⟨alike, held, abreast⟩

theorem erase_left (abreast : Abreast setup held session other) (name : String) :
    session.held.erase name = (held.erase name).left := by
  rw [abreast.left, Keepings.left_erase]

theorem erase_right (abreast : Abreast setup held session other) (name : String) :
    other.held.erase name = (held.erase name).right := by
  rw [abreast.right, Keepings.right_erase]

/-- Both give up what they hold under a name; handles that are not held yet stay. -/
theorem forget (abreast : Abreast setup held session other) (name : String)
    (pairs : List (Address × Address))
    (linked : Linked (.first setup.program) 0 (held.hands.shareAll pairs) state state') :
    Linked (.first setup.program) 0 ((held.erase name).hands.shareAll pairs)
      ((session.withState state).forget name).state
      ((other.withState state').forget name).state := by
  rw [Keepings.hands_split name abreast.distinct, Hands.shareAll_comm] at linked
  have given := linked.giveBack
  have firsts : (session.held.get? name).toList = (held.lookup name).toList.map Prod.fst := by
    rw [abreast.left, Keepings.get?_left, Option.toList_map]
  have seconds : (other.held.get? name).toList = (held.lookup name).toList.map Prod.snd := by
    rw [abreast.right, Keepings.get?_right, Option.toList_map]
  rw [← firsts, ← seconds] at given
  exact given

/-- Both show an object, and keep a handle on it or give it back. -/
theorem deliver (abreast : Abreast setup held session other)
    (linked : Linked (.first setup.program) 0 (held.hands.share pair) state state')
    (keep : Option String) :
    Answered setup ((session.withState state).deliver keep pair.1)
      ((other.withState state').deliver keep pair.2) := by
  have shown : Reply.Alike (.value (state.heap.snapshot pair.1))
      (.value (state'.heap.snapshot pair.2)) :=
    .value (linked.tree_eq (Hands.has_share_iff.mpr (Or.inl rfl)))
  rw [← held.hands.shareAll_nil, ← Hands.shareAll_cons] at linked
  cases keep with
  | none => exact (abreast.withState linked.giveBack).answered shown
  | some name =>
      have kept := abreast.forget name [pair] linked
      exact ⟨shown, (name, pair) :: held.erase name, abreast.setup_left, abreast.setup_right,
        congrArg _ (abreast.erase_left name), congrArg _ (abreast.erase_right name),
        nodup_filter_cons abreast.distinct name pair, kept⟩

/-- What runs leave of both sessions, given that they end alike. -/
theorem conclude {α : Type} {outcome outcome' : Outcome α}
    {after : α → α → State → State → Prop} {answer : Session → α → Reply × Session}
    (abreast : Abreast setup held session other)
    (ended : Outcome.Abreast after (Linked (.first setup.program) 0 held.hands) outcome outcome')
    (answers : ∀ {result result' state state'}, after result result' state state' →
      Answered setup (answer (session.withState state) result)
        (answer (other.withState state') result')) :
    Together (Answered setup) (session.conclude outcome answer)
      (other.conclude outcome' answer) := by
  cases ended with
  | value held => exact .ok (answers held)
  | failure failure linked => exact .ok ((abreast.withState linked).answered (.failed failure))
  | stopped _ => exact .error _

/-- Names are held in both sessions or in neither. -/
theorem isKnown_eq (abreast : Abreast setup held session other) (description : Description) :
    description.isKnown session.held = description.isKnown other.held := by
  rw [abreast.left, abreast.right]
  exact held.isKnown_eq description

/-- What is held under a name is linked, or nothing is. -/
theorem get? (abreast : Abreast setup held session other) (name : String) :
    (session.held.get? name = none ∧ other.held.get? name = none) ∨
      ∃ pair : Address × Address, session.held.get? name = some pair.1 ∧
        other.held.get? name = some pair.2 ∧ held.hands.Has pair.1 pair.2 := by
  rw [abreast.left, abreast.right, Keepings.get?_left, Keepings.get?_right]
  cases found : held.lookup name with
  | none => exact Or.inl ⟨rfl, rfl⟩
  | some pair => exact Or.inr ⟨pair, rfl, rfl, Keepings.has_of_lookup name found⟩

/-- Described values, which both runs have at hand. -/
theorem describe (abreast : Abreast setup held session other) (descriptions : List Description) :
    ∃ pairs : List (Address × Address),
      (Description.allocateAll session.held session.state.heap descriptions).1 =
        pairs.map Prod.fst ∧
      (Description.allocateAll other.held other.state.heap descriptions).1 = pairs.map Prod.snd ∧
      Linked (.first setup.program) 0 (held.hands.shareAll pairs)
        { session.state with
          heap := (Description.allocateAll session.held session.state.heap descriptions).2 }
        { other.state with
          heap := (Description.allocateAll other.held other.state.heap descriptions).2 } := by
  rw [abreast.left, abreast.right]
  exact abreast.linked.describeAll descriptions

/-- Both sessions are asked for the same, and where that is an answer they know it. -/
theorem errand (abreast : Abreast setup held session other) (request : Request) :
    Errand.Alike setup held session other (session.errand request) (other.errand request) := by
  have linked := abreast.linked
  obtain ⟨links, joined⟩ := linked.joined
  cases request with
  | run statements => exact .run _ _
  | execute statement => exact .run _ _
  | evaluate expression keep => exact .run _ _
  | call function arguments keep =>
      simp only [Session.errand, abreast.isKnown_eq]
      split
      · exact .run _ _
      · exact .answer .unknownName
  | lookup variableName keep =>
      simp only [Session.errand, Interpreter.lookup?, abreast.setup_left, abreast.setup_right]
      cases setup.program.names.get? variableName with
      | none => exact .answer .done
      | some name =>
          have reached : ∀ {links},
              State.Joined (.first setup.program) held.hands session.state other.state links →
                Option.Rel links (session.interpreter.state.lookup? name)
                  (other.interpreter.state.lookup? name) := fun joined => joined.lookup? name
          simp only [Option.bind_some]
          rcases cases_of_rel (reached joined) with ⟨none, none'⟩ | ⟨first, second, bound, bound', _⟩
          · rw [none, none']
            exact .answer .done
          · rw [bound, bound']
            refine @Errand.Alike.lend _ _ _ _ (first, second) keep (linked.share
              (shows_of_lookup? bound) (shows_of_lookup? bound') fun joined => ?_)
            have both := reached joined
            rwa [bound, bound', Option.rel_some_some] at both
  | create name description =>
      simp only [Session.errand, abreast.isKnown_eq]
      split
      · exact .build _ _
      · exact .answer .unknownName
  | «show» name =>
      simp only [Session.errand]
      rcases abreast.get? name with ⟨none, none'⟩ | ⟨pair, found, found', has⟩
      · rw [none, none']
        exact .answer .unknownName
      · rw [found, found']
        exact .answer (.value (linked.tree_eq has))
  | outline name =>
      simp only [Session.errand]
      rcases abreast.get? name with ⟨none, none'⟩ | ⟨pair, found, found', has⟩
      · rw [none, none']
        exact .answer .unknownName
      · rw [found, found']
        apply Errand.Alike.answer
        simp only [outline_eq, Heap.render, linked.tree_eq has, joined.agree.type (joined.has has)]
        exact .text _ _ _
  | compare left right =>
      simp only [Session.errand]
      rcases abreast.get? left with ⟨none, none'⟩ | ⟨first, found, found', has⟩
      · rw [none, none']
        exact .answer .unknownName
      · rcases abreast.get? right with ⟨none, none'⟩ | ⟨second, present, present', has'⟩
        · rw [found, found', none, none']
          exact .answer .unknownName
        · rw [found, found', present, present']
          apply Errand.Alike.answer
          simp only [joined.agree.equals_eq linked.left.sound.grounded linked.right.sound.grounded
            (joined.has has) (joined.has has')]
          apply Reply.Alike.comparison
          intro same
          have one := joined.has has
          rw [eq_of_beq same] at one
          exact beq_iff_eq.mpr (joined.agree.only one (joined.has has'))
  | drop name =>
      have known : (session.held.get? name).isSome = (other.held.get? name).isSome := by
        rw [abreast.left, abreast.right, Keepings.get?_left, Keepings.get?_right]
        simp only [Option.isSome_map]
      simp only [Session.errand, known]
      split
      · exact .drop name
      · exact .answer .unknownName
  | sweep => exact .sweep
  | clearOutput => exact .clear
  | nameCount =>
      simp only [Session.errand, abreast.setup_left, abreast.setup_right]
      exact .answer (.count _)
  | builtinCount =>
      simp only [Session.errand, abreast.setup_left, abreast.setup_right]
      exact .answer (.count _)

/-- Code, run by evaluators that go side by side. -/
theorem run {nested nested' : Nested} (abreast : Abreast setup held session other)
    (both : nested.Abreast (.first setup.program) nested') (code : Code) (keep : Option String) :
    Together (Answered setup) (session.carryOut nested (.run code keep))
      (other.carryOut nested' (.run code keep)) := by
  have linked := abreast.linked
  cases code with
  | statements ids =>
      simp only [carryOut, ran, evaluation, conclude_void]
      apply abreast.conclude (sequence_agreeing both ids _ _ linked)
      exact fun ended => (abreast.withState ended.2).answered .done
  | statement id =>
      simp only [carryOut, ran, evaluation, conclude_void]
      apply abreast.conclude (both.execute id 0 held.hands _ _ linked)
      exact fun ended => (abreast.withState ended.2).answered .done
  | expression id =>
      simp only [carryOut, ran, evaluation, conclude_some]
      apply abreast.conclude ((both.operands 0).evaluate trivial held.hands _ _ linked)
      exact fun ended => abreast.deliver ended.lower keep
  | call function arguments =>
      obtain ⟨pairs, firsts, seconds, described⟩ := abreast.describe arguments
      simp only [carryOut, ran, evaluation, conclude_some, firsts, seconds, abreast.setup_left,
        abreast.setup_right]
      apply abreast.conclude (callUser_abreast both function .empty _ _ described)
      exact fun ended => abreast.deliver ended.lower keep

variable {evaluator evaluator' : Setup → Nat → Nested} {fuel : Nat}

/-- Requests that run code, by evaluators that go side by side. -/
theorem perform (abreast : Abreast setup held session other)
    (both : (evaluator setup fuel).Abreast (.first setup.program) (evaluator' setup fuel))
    (request : Request) :
    Together (Answered setup) (session.performWith evaluator fuel request)
      (other.performWith evaluator' fuel request) := by
  have linked := abreast.linked
  have asked := abreast.errand request
  rw [performWith_eq, performWith_eq, abreast.setup_left, abreast.setup_right]
  generalize session.errand request = errand, other.errand request = errand' at asked ⊢
  cases asked with
  | run code keep => exact abreast.run both code keep
  | lend keep lent => exact .ok (abreast.deliver lent keep)
  | build description name =>
      obtain ⟨pairs, firsts, seconds, described⟩ := abreast.describe [description]
      simp only [Description.allocateAll_singleton] at firsts seconds described
      obtain ⟨pair, rfl, first⟩ := List.map_eq_singleton_iff.mp firsts.symm
      have second := (List.cons.inj seconds).1
      rw [Hands.shareAll_cons, Hands.shareAll_nil] at described
      have delivered := abreast.deliver described (some name)
      rw [first, ← second] at delivered
      exact .ok delivered
  | drop name =>
      have forgotten := abreast.forget name []
        (by rw [Hands.shareAll_nil]; exact linked)
      rw [Hands.shareAll_nil] at forgotten
      have dropped : Abreast setup (held.erase name) (session.forget name) (other.forget name) :=
        ⟨abreast.setup_left, abreast.setup_right, abreast.erase_left name,
          abreast.erase_right name, abreast.distinct.sublist (List.filter_sublist.map _),
          forgotten⟩
      exact .ok (dropped.answered .done)
  | sweep =>
      have left : session.interpreter.state.heap.sweep = (0, session.interpreter.state.heap) :=
        linked.left.sound.balanced.sweep_eq
      have right : other.interpreter.state.heap.sweep = (0, other.interpreter.state.heap) :=
        linked.right.sound.balanced.sweep_eq
      simp only [carryOut, onHeap, State.onHeap, left, right]
      exact .ok (abreast.answered (.count 0))
  | clear =>
      refine .ok ((abreast.withState ?_).answered .done)
      exact linked.reprint (congrArg Output.clear)
  | answer alike => exact .ok (abreast.answered alike)

end Abreast

end Session

end ScriptEngine
