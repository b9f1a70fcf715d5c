import ScriptEngine.Proofs.Control.Quiet
import ScriptEngine.Proofs.Hosting.Sessions

/-!
# Pinned results

Call frames can be made, put on a stack and taken off it, given results, asked for
them and destroyed in any order.  A pin is one mark on an object, however many
frames hold it: whatever is pinned is the result of some frame, but where an object
is the result of a frame already, the first frame to give it up takes away the pin
that the others rely on.  Keeping a result in the frame that holds it gives it up.
-/

namespace ScriptEngine

/-- Call frames with the heap they refer to and the handles of whoever uses them. -/
structure Frames where
  heap : Heap := {}
  calls : Calls := {}
  /-- Frames that are on no stack. -/
  loose : List CallFrame := []
  owned : List Address := []

namespace Frames

/-- A frame is named by its place off the stack; without one it is the current call. -/
inductive Move where
  | make (description : Description)
  | share (value : Address)
  | release (value : Address)
  | create (function : Name) (callSite : Span) (scopeBase loopBase : Nat)
  | push (place : Nat)
  | pop
  | drop (place : Nat)
  | set (place : Option Nat) (value : Address)
  | take (place : Option Nat)

variable (frames : Frames)

def frame? : Option Nat → Option CallFrame
  | none => frames.calls.current?
  | some place => frames.loose[place]?

def replace (frame : CallFrame) : Option Nat → Frames
  | none => { frames with calls := frames.calls.modifyCurrent fun _ => frame }
  | some place => { frames with loose := frames.loose.set place frame }

/-- The results that frames hold, on the stack or off it. -/
def results : Multiset Address :=
  frames.calls.results + frames.loose.filterMap (·.result)

def discard (frame : CallFrame) : Frames :=
  { frames with heap := frame.discard frames.heap }

/-- A move that asks for a frame or for a handle that is not there does nothing. -/
def perform : Move → Frames
  | .make description =>
      let (value, heap) := description.allocate [] frames.heap
      { frames with heap := heap, owned := value :: frames.owned }
  | .share value =>
      if value ∈ frames.owned then
        { frames with heap := frames.heap.retain value, owned := value :: frames.owned }
      else frames
  | .release value =>
      if value ∈ frames.owned then
        { frames with heap := frames.heap.release value, owned := frames.owned.erase value }
      else frames
  | .create function callSite scopeBase loopBase =>
      let frame := {
        function := function
        callSite := callSite
        scopeBase := scopeBase
        loopBase := loopBase }
      { frames with loose := frame :: frames.loose }
  | .push place =>
      match frames.loose[place]? with
      | none => frames
      | some frame =>
          let rest := { frames with loose := frames.loose.eraseIdx place }
          match frames.calls.exceeded? with
          | some _ => rest.discard frame
          | none => { rest with calls := frames.calls.push frame }
  | .pop =>
      match frames.calls.current? with
      | none => frames
      | some frame => { frames with calls := frames.calls.pop, loose := frame :: frames.loose }
  | .drop place =>
      match frames.loose[place]? with
      | none => frames
      | some frame => { frames with loose := frames.loose.eraseIdx place }.discard frame
  | .set place value =>
      match frames.frame? place with
      | none => frames
      | some frame =>
          if value ∈ frames.owned then
            let (frame, heap) := frame.setResult frames.heap value
            { frames with heap := heap, owned := frames.owned.erase value }.replace frame place
          else frames
  | .take place =>
      match frames.frame? place with
      | none => frames
      | some frame =>
          let (result, frame, heap) := frame.takeResult frames.heap
          { frames with heap := heap, owned := result.toList ++ frames.owned }.replace frame place

def performAll (moves : List Move) : Frames :=
  moves.foldl perform frames

/-- No frames yet, and a stack for at most so many calls. -/
def start (limit : Option Nat) : Frames where
  calls := { limit := limit }

/-- What becomes a result is not the result of any frame already. -/
def Apart : Move → Prop
  | .set _ value => value ∉ frames.results
  | _ => True

instance (move : Move) : Decidable (frames.Apart move) := by
  cases move with
  | set place value => exact inferInstanceAs (Decidable (value ∉ frames.results))
  | _ => exact instDecidableTrue

/-- What becomes a result in the course of the moves is not one already. -/
def AllApart (frames : Frames) : List Move → Prop
  | [] => True
  | move :: others => frames.Apart move ∧ (frames.perform move).AllApart others

instance AllApart.decide : (frames : Frames) → (moves : List Move) → Decidable (frames.AllApart moves)
  | _, [] => instDecidableTrue
  | frames, move :: others =>
      have := AllApart.decide (frames.perform move) others
      inferInstanceAs (Decidable (frames.Apart move ∧ (frames.perform move).AllApart others))

end Frames

/-! ## Pins -/

namespace Heap

/-- Objects that live on are pinned as they were. -/
structure KeepsPins (before after : Heap) : Prop where
  size : before.cells.size ≤ after.cells.size
  pinned : ∀ {address object}, address < before.cells.size → after.get? address = some object →
    ∃ earlier, before.get? address = some earlier ∧ earlier.pinned = object.pinned

variable {before after heap : Heap} {address value : Address}

theorem isPinned_of_get? {object : Object} (found : heap.get? address = some object) :
    heap.isPinned address = object.pinned := by
  rw [isPinned, found]

theorem isPinned_setPinned_self {object : Object} (found : heap.get? value = some object)
    (pinned : Bool) : (heap.setPinned value pinned).isPinned value = pinned := by
  rw [isPinned, setPinned, get?_modify, if_pos rfl, found]
  rfl

theorem isPinned_setPinned_of_ne (different : value ≠ address) (heap : Heap) (pinned : Bool) :
    (heap.setPinned value pinned).isPinned address = heap.isPinned address := by
  rw [isPinned, setPinned, get?_modify, if_neg different, isPinned]

theorem isPinned_unpin (heap : Heap) (value : Address) :
    (heap.setPinned value false).isPinned value = false := by
  rw [isPinned, setPinned, get?_modify, if_pos rfl]
  cases heap.get? value with
  | none => rfl
  | some object => rfl

/-- A pin is no count. -/
theorem Preserves.keepsPins (preserves : Preserves before after) : KeepsPins before after := by
  refine ⟨preserves.size, ?_⟩
  intro address object old found
  obtain ⟨earlier, early, alike⟩ := preserves.object old found
  refine ⟨earlier, early, ?_⟩
  rw [alike]

/-! ## Heaps with results -/

/-- The handles that are owned and the results of frames are counted, no other
object is pinned, and if all results were put in apart, all of them are. -/
structure Keeps (apart : Prop) (heap : Heap) (owned results : Multiset Address) : Prop where
  balanced : heap.Balanced 0 (owned + results)
  tidy : heap.Tidy results
  distinct : apart → results.Nodup
  pinned : apart → ∀ value ∈ results, heap.isPinned value = true

namespace Keeps

variable {apart : Prop} {owned results : Multiset Address}

theorem result_alive (keeps : heap.Keeps apart owned results) (member : value ∈ results) :
    ∃ object, heap.get? value = some object :=
  keeps.balanced.alive (by simp [member])

/-- A change to the handles that are owned. -/
theorem rehand {owned' : Multiset Address} (keeps : heap.Keeps apart owned results)
    (balanced : after.Balanced 0 (owned' + results)) (tidy : after.Tidy results)
    (pins : KeepsPins heap after) : after.Keeps apart owned' results := by
  refine ⟨balanced, tidy, keeps.distinct, ?_⟩
  intro held value member
  obtain ⟨earlier, early⟩ := keeps.result_alive member
  obtain ⟨object, found⟩ : ∃ object, after.get? value = some object :=
    balanced.alive (by simp [member])
  obtain ⟨earlier, early, same⟩ := pins.pinned (lt_size_of_get?_eq_some early) found
  rw [isPinned_of_get? found, ← same, ← isPinned_of_get? early]
  exact keeps.pinned held value member

theorem share (keeps : heap.Keeps apart owned results) (member : value ∈ owned) :
    (heap.retain value).Keeps apart (value ::ₘ owned) results := by
  apply keeps.rehand _ (keeps.tidy.retain value) (Preserves.retain heap value).keepsPins
  rw [Multiset.cons_add]
  exact keeps.balanced.retain (by simp [member])

theorem release (keeps : heap.Keeps apart (value ::ₘ owned) results) :
    (heap.release value).Keeps apart owned results := by
  apply keeps.rehand _ (keeps.tidy.releaseAll [value])
    (Preserves.releaseAll heap [value]).keepsPins
  apply Balanced.releaseAll
  simpa using keeps.balanced

theorem make (keeps : heap.Keeps apart owned results) (description : Description) :
    (description.allocate [] heap).2.Keeps apart
      ((description.allocate [] heap).1 ::ₘ owned) results := by
  have lends : ∀ {Keeps : Heap → Multiset Address → Multiset Address → Prop},
      Crafting.Lends Keeps [] description.names := by
    intro Keeps name member address held
    simp [Holdings.get?] at held
  have started : heap.Balanced (0 + 0) (owned + results) := by
    rw [zero_add]
    exact keeps.balanced
  have balanced := (Balanced.crafting 0 results).describe description lends started
  apply keeps.rehand
  · rw [zero_add] at balanced
    exact balanced
  · exact @Crafting.describe _ [] (Tidy.crafting results) description lends heap 0 0 keeps.tidy
  · have preserves := @Crafting.describe _ [] (Preserves.crafting heap) description lends heap 0 0
      (.refl heap)
    exact preserves.keepsPins

theorem keep (keeps : heap.Keeps apart (value ::ₘ owned) results)
    (fresh : apart → value ∉ results) :
    (heap.setPinned value true).Keeps apart owned (value ::ₘ results) := by
  refine ⟨?_, keeps.tidy.pin value, ?_, ?_⟩
  · have balanced := keeps.balanced.setPinned value true
    rwa [Multiset.cons_add, ← Multiset.add_cons] at balanced
  · intro held
    exact Multiset.nodup_cons.mpr ⟨fresh held, keeps.distinct held⟩
  · intro held other member
    rcases Multiset.mem_cons.mp member with rfl | member
    · obtain ⟨object, found⟩ : ∃ object, heap.get? other = some object :=
        keeps.balanced.alive (by simp)
      exact isPinned_setPinned_self found true
    · have different : value ≠ other := by
        rintro rfl
        exact fresh held member
      rw [isPinned_setPinned_of_ne different]
      exact keeps.pinned held other member

theorem take (keeps : heap.Keeps apart owned (value ::ₘ results)) :
    (heap.setPinned value false).Keeps apart (value ::ₘ owned) results := by
  refine ⟨?_, keeps.tidy.unpin, ?_, ?_⟩
  · have balanced := keeps.balanced.setPinned value false
    rwa [Multiset.add_cons, ← Multiset.cons_add] at balanced
  · intro held
    exact (Multiset.nodup_cons.mp (keeps.distinct held)).2
  · intro held other member
    have different : value ≠ other := by
      rintro rfl
      exact (Multiset.nodup_cons.mp (keeps.distinct held)).1 member
    rw [isPinned_setPinned_of_ne different]
    exact keeps.pinned held other (Multiset.mem_cons_of_mem member)

end Keeps

end Heap

/-! ## Frames one by one -/

namespace CallFrame

variable {apart : Prop} {heap : Heap} {frame : CallFrame} {value : Address}
  {owned others : Multiset Address}

theorem setResult_keeps
    (keeps : heap.Keeps apart (value ::ₘ owned) ((frame.result.toList : Multiset Address) + others))
    (fresh : apart → value ∉ (frame.result.toList : Multiset Address) + others) :
    (frame.setResult heap value).2.Keeps apart owned
      (((frame.setResult heap value).1.result.toList : Multiset Address) + others) := by
  have kept := keeps.keep fresh
  unfold setResult
  cases earlier : frame.result with
  | none => simpa [earlier] using kept
  | some previous =>
      simp only [earlier, Option.toList_some, Multiset.coe_singleton, Multiset.singleton_add]
        at kept ⊢
      rw [Multiset.cons_swap] at kept
      exact kept.take.release

theorem takeResult_keeps
    (keeps : heap.Keeps apart owned ((frame.result.toList : Multiset Address) + others)) :
    (frame.takeResult heap).2.2.Keeps apart
      (((frame.takeResult heap).1.toList : Multiset Address) + owned)
      (((frame.takeResult heap).2.1.result.toList : Multiset Address) + others) := by
  unfold takeResult
  cases earlier : frame.result with
  | none => simpa [earlier] using keeps
  | some value =>
      simp only [earlier, Option.toList_some, Option.toList_none, Multiset.coe_singleton,
        Multiset.coe_nil, Multiset.singleton_add, zero_add] at keeps ⊢
      exact keeps.take

theorem discard_keeps
    (keeps : heap.Keeps apart owned ((frame.result.toList : Multiset Address) + others)) :
    (frame.discard heap).Keeps apart owned others := by
  unfold discard
  cases earlier : frame.result with
  | none => simpa [earlier] using keeps
  | some value =>
      simp only [earlier, Option.toList_some, Multiset.coe_singleton, Multiset.singleton_add]
        at keeps
      exact keeps.take.release

/-- A frame that is given the result it has gives up the pin for it. -/
theorem isPinned_setResult_again (held : frame.result = some value) (heap : Heap) :
    (frame.setResult heap value).2.isPinned value = false := by
  unfold setResult
  simp only [held]
  have pins := (Heap.Preserves.releaseAll ((heap.setPinned value true).setPinned value false) [value]).keepsPins
  rw [Heap.isPinned]
  split
  · rename_i object found
    have old : value < ((heap.setPinned value true).setPinned value false).cells.size := by
      have size := (Heap.Remains.release ((heap.setPinned value true).setPinned value false)
        value).cells
      rw [← size]
      exact Heap.lt_size_of_get?_eq_some found
    obtain ⟨earlier, early, same⟩ := pins.pinned old found
    rw [← same, ← Heap.isPinned_of_get? early, Heap.isPinned_unpin]
  · rfl

end CallFrame

/-! ## Runs of moves -/

namespace Frames

variable {frames : Frames} {frame : CallFrame} {apart : Prop}

def Keeps (apart : Prop) (frames : Frames) : Prop :=
  frames.heap.Keeps apart frames.owned frames.results

theorem results_loose {loose : List CallFrame} {place : Nat} (found : loose[place]? = some frame) :
    (loose.filterMap (·.result) : Multiset Address) =
      (frame.result.toList : Multiset Address) + (loose.eraseIdx place).filterMap (·.result) := by
  obtain ⟨inside, rfl⟩ := List.getElem?_eq_some_iff.mp found
  have same := (List.getElem_cons_eraseIdx_perm inside).filterMap (·.result)
  rw [Multiset.coe_add, Multiset.coe_eq_coe]
  refine same.symm.trans (List.Perm.of_eq ?_)
  cases held : loose[place].result with
  | none => simp [held]
  | some value => simp [held]

@[simp] theorem replace_heap (frames : Frames) (frame : CallFrame) (place : Option Nat) :
    (frames.replace frame place).heap = frames.heap := by
  cases place <;> rfl

@[simp] theorem replace_owned (frames : Frames) (frame : CallFrame) (place : Option Nat) :
    (frames.replace frame place).owned = frames.owned := by
  cases place <;> rfl

/-- The result of one frame and the results of the others, which stay when that
frame is replaced. -/
theorem results_replace {place : Option Nat} (found : frames.frame? place = some frame) :
    ∃ others, frames.results = (frame.result.toList : Multiset Address) + others ∧
      ∀ after heap owned, ({ frames with heap := heap, owned := owned }.replace after place).results =
        (after.result.toList : Multiset Address) + others := by
  cases place with
  | none =>
      refine ⟨frames.calls.pop.results + frames.loose.filterMap (·.result), ?_, ?_⟩
      · rw [results, Calls.results_of_current? found, add_assoc]
      · intro after heap owned
        rw [results, replace, Calls.results_modifyCurrent found, add_assoc]
  | some place =>
      refine ⟨frames.calls.results + (frames.loose.eraseIdx place).filterMap (·.result), ?_, ?_⟩
      · rw [results, results_loose found, add_left_comm]
      · intro after heap owned
        obtain ⟨inside, _⟩ := List.getElem?_eq_some_iff.mp found
        have placed : (frames.loose.set place after)[place]? = some after := by
          simp [inside]
        rw [results, replace, results_loose placed, List.eraseIdx_set_eq, add_left_comm]

variable (keeps : frames.Keeps apart)
include keeps

theorem Keeps.discard {place : Nat} (found : frames.loose[place]? = some frame) :
    ({ frames with loose := frames.loose.eraseIdx place }.discard frame).Keeps apart := by
  apply CallFrame.discard_keeps
  have kept := keeps
  rw [Frames.Keeps, results, results_loose found, add_left_comm] at kept
  exact kept

theorem Keeps.perform {move : Move} (fresh : apart → frames.Apart move) :
    (frames.perform move).Keeps apart := by
  cases move with
  | make description => exact Heap.Keeps.make keeps description
  | share value =>
      rw [Frames.perform]
      split
      · rename_i owned
        exact Heap.Keeps.share keeps (Multiset.mem_coe.mpr owned)
      · exact keeps
  | release value =>
      rw [Frames.perform]
      split
      · rename_i owned
        apply Heap.Keeps.release
        rw [Multiset.cons_coe, Multiset.coe_eq_coe.mpr (List.perm_cons_erase owned).symm]
        exact keeps
      · exact keeps
  | create function callSite scopeBase loopBase => exact keeps
  | push place =>
      rw [Frames.perform]
      cases found : frames.loose[place]? with
      | none => exact keeps
      | some frame =>
          cases frames.calls.exceeded? with
          | some limit => exact keeps.discard found
          | none =>
              have kept := keeps
              rw [Frames.Keeps, results, results_loose found, ← add_assoc,
                add_comm frames.calls.results, ← Calls.results_push] at kept
              exact kept
  | pop =>
      rw [Frames.perform]
      cases current : frames.calls.current? with
      | none => exact keeps
      | some frame =>
          have kept := keeps
          rw [Frames.Keeps, results, Calls.results_of_current? current,
            add_comm _ frames.calls.pop.results, add_assoc] at kept
          have loose : (frame.result.toList : Multiset Address) +
              frames.loose.filterMap (·.result) =
                ((frame :: frames.loose).filterMap (·.result) : Multiset Address) := by
            have first : (frame :: frames.loose)[0]? = some frame := rfl
            rw [results_loose first, List.eraseIdx_zero, List.tail_cons]
          rw [loose] at kept
          exact kept
  | drop place =>
      rw [Frames.perform]
      cases found : frames.loose[place]? with
      | none => exact keeps
      | some frame => exact keeps.discard found
  | set place value =>
      rw [Frames.perform]
      cases found : frames.frame? place with
      | none => exact keeps
      | some frame =>
          simp only
          split
          · rename_i owned
            obtain ⟨others, split, replaced⟩ := results_replace found
            rw [Frames.Keeps, replaced, replace_heap, replace_owned]
            apply CallFrame.setResult_keeps
            · rw [← split, Multiset.cons_coe,
                Multiset.coe_eq_coe.mpr (List.perm_cons_erase owned).symm]
              exact keeps
            · rw [← split]
              exact fresh
          · exact keeps
  | take place =>
      rw [Frames.perform]
      cases found : frames.frame? place with
      | none => exact keeps
      | some frame =>
          obtain ⟨others, split, replaced⟩ := results_replace found
          rw [Frames.Keeps, replaced, replace_heap, replace_owned, ← Multiset.coe_add]
          apply CallFrame.takeResult_keeps
          rw [← split]
          exact keeps

omit keeps

theorem start_keeps (limit : Option Nat) : (start limit).Keeps apart := by
  have balanced := (Ledger.Balanced.blank limit).heap
  have nothing : (start limit).results = 0 := by
    simp [results, start, Calls.results]
  refine ⟨?_, ⟨?_, ?_⟩, ?_, ?_⟩
  · have blank : (start limit).owned + (start limit).results = (0 : Multiset Address) := by
      rw [nothing, add_zero]
      rfl
    rw [blank]
    show ({} : Heap).Balanced 0 0
    simpa [State.ledger, Ledger.handles, Hand.empty, Scopes.bound_blank, Calls.results] using balanced
  · intro address object found
    simp [start, Heap.get?_blank] at found
  · intro address object found
    simp [start, Heap.get?_blank] at found
  · simp [nothing]
  · simp [nothing]

theorem Keeps.performAll {moves : List Move} (keeps : frames.Keeps apart)
    (fresh : apart → frames.AllApart moves) : (frames.performAll moves).Keeps apart := by
  induction moves generalizing frames with
  | nil => exact keeps
  | cons move others induction =>
      apply induction
      · exact keeps.perform fun held => (fresh held).1
      · exact fun held => (fresh held).2

theorem perform_set {place : Option Nat} {value : Address}
    (found : frames.frame? place = some frame) (owned : value ∈ frames.owned) :
    frames.perform (.set place value) =
      { frames with
        heap := (frame.setResult frames.heap value).2
        owned := frames.owned.erase value }.replace (frame.setResult frames.heap value).1 place := by
  simp only [perform, found, if_pos owned]

/-- After any moves, whatever is pinned is the result of a frame, and the result of a
frame is pinned if no result was one already when it was set.  A result that one
frame gives up, or is given again, is not pinned, whichever frames still hold it. -/
theorem pinned_while_held (limit : Option Nat) (moves : List Move) :
    (∀ value, ((start limit).performAll moves).heap.isPinned value = true →
      value ∈ ((start limit).performAll moves).results) ∧
    ((start limit).AllApart moves → ∀ value ∈ ((start limit).performAll moves).results,
      ((start limit).performAll moves).heap.isPinned value = true) ∧
    ∀ place frame value, ((start limit).performAll moves).frame? place = some frame →
      frame.result = some value →
        (((start limit).performAll moves).perform (.take place)).heap.isPinned value = false ∧
        (value ∈ ((start limit).performAll moves).owned →
          value ∈ (((start limit).performAll moves).perform (.set place value)).results ∧
            (((start limit).performAll moves).perform (.set place value)).heap.isPinned value =
              false) := by
  have kept : ((start limit).performAll moves).Keeps ((start limit).AllApart moves) :=
    (start_keeps limit).performAll id
  refine ⟨?_, fun fresh => kept.pinned fresh, ?_⟩
  · intro value pinned
    rw [Heap.isPinned] at pinned
    split at pinned
    · rename_i object found
      exact kept.tidy.pinned found pinned
    · simp at pinned
  · intro place frame value found held
    constructor
    · simp only [perform, found, replace_heap, CallFrame.takeResult, held]
      exact Heap.isPinned_unpin _ value
    · intro owned
      obtain ⟨others, _, replaced⟩ := results_replace found
      rw [perform_set found owned, replaced, replace_heap]
      refine ⟨?_, frame.isPinned_setResult_again held _⟩
      have again : (frame.setResult ((start limit).performAll moves).heap value).1.result =
          some value := rfl
      simp [again]

/-- Two calls give back two objects, and the outer result is asked for first. -/
theorem pinned_while_held_crossing :
    let moves : List Move := [.make (.scalar (.int 1)), .make (.vector .int []),
      .create .empty .empty 1 0, .push 0, .set none 0, .create .empty .empty 2 0,
      .set (some 0) 1, .take none]
    (start none).AllApart moves ∧
      1 ∈ ((start none).performAll moves).results ∧
      ((start none).performAll moves).heap.isPinned 1 = true := by
  have apart : (start none).AllApart [.make (.scalar (.int 1)), .make (.vector .int []),
      .create .empty .empty 1 0, .push 0, .set none 0, .create .empty .empty 2 0,
      .set (some 0) 1, .take none] := by
    decide
  have held : 1 ∈ ((start none).performAll [.make (.scalar (.int 1)), .make (.vector .int []),
      .create .empty .empty 1 0, .push 0, .set none 0, .create .empty .empty 2 0,
      .set (some 0) 1, .take none]).results := by
    decide
  exact ⟨apart, held, (pinned_while_held none _).2.1 apart 1 held⟩

end Frames

end ScriptEngine
