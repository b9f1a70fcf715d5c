import ScriptEngine.Proofs.Ownership.Evolution
import ScriptEngine.Proofs.Ownership.Tidiness

/-!
# Sheltered containers

Nothing that runs while a container is owned by someone else changes what it
holds: only containers that are lent are written to, and what is owned is not.
A loop over a container of its own therefore sees the same elements from its
first round to its last.
-/

namespace ScriptEngine

namespace Ledger

variable {licence : Licence} {before after : Ledger} {source : Address} {payload : Payload}

/-- One more handle that is owned, by someone who takes no part. -/
def beside (ledger : Ledger) (address : Address) : Ledger :=
  { ledger with owned := address ::ₘ ledger.owned }

/-- Steps go on beside a handle as they do without it. -/
theorem Step.beside (step : Step licence before after) (address : Address) :
    Step licence (before.beside address) (after.beside address) := by
  cases step with
  | @craft heap given made owned makes split =>
      have framed : address ::ₘ before.owned = given + address ::ₘ owned := by
        rw [split, Multiset.add_cons]
      have crafted := @Step.craft licence (before.beside address) heap given made _ makes framed
      rw [Multiset.add_cons] at crafted
      exact crafted
  | cache value =>
      have cached := @Step.cache licence (before.beside address) value
      rw [Ledger.beside, Multiset.cons_swap] at cached
      exact cached
  | @duplicate other scalar =>
      have duplicated := @Step.duplicate licence (before.beside address) other scalar
      rw [Ledger.beside, Multiset.cons_swap] at duplicated
      exact duplicated
  | @share other shown => exact @Step.share licence (before.beside address) other shown
  | @lower other owned given =>
      have framed : address ::ₘ before.owned = other ::ₘ address ::ₘ owned := by
        rw [given, Multiset.cons_swap]
      exact @Step.lower licence (before.beside address) other _ framed
  | @giveBack other shared given =>
      exact @Step.giveBack licence (before.beside address) other shared given
  | @bind hand lent position name value previous? inside previous given allowed =>
      have framed : (before.beside address).toHand = (hand.own address).carry lent value := by
        have both := congrArg (Hand.own address) given
        cases lent with
        | false => exact both.trans (Hand.own_own _ _ _)
        | true => exact both
      exact @Step.bind licence (before.beside address) _ lent position name value _ inside previous
        framed allowed
  | push => exact @Step.push licence (before.beside address)
  | @pop frame last => exact @Step.pop licence (before.beside address) frame last
  | skip depth => exact @Step.skip licence (before.beside address) depth
  | @amend container object payload added removed owned shared found refills given =>
      have framed : address ::ₘ before.owned = added + address ::ₘ owned := by
        rw [given, Multiset.add_cons]
      exact @Step.amend licence (before.beside address) container object payload added removed _
        shared found refills framed
  | @extend dict key entries owned shared payload absent given =>
      have framed : address ::ₘ before.owned = key ::ₘ address ::ₘ owned := by
        rw [given, Multiset.cons_swap]
      exact @Step.extend licence (before.beside address) dict key entries _ shared payload absent
        framed
  | @keep value owned given =>
      have framed : address ::ₘ before.owned = value ::ₘ address ::ₘ owned := by
        rw [given, Multiset.cons_swap]
      exact @Step.keep licence (before.beside address) value _ framed
  | @take value results given =>
      have taken := @Step.take licence (before.beside address) value results given
      rw [Ledger.beside, Multiset.cons_swap] at taken
      exact taken
  | @handBack arguments value owned given within =>
      have framed : address ::ₘ before.owned = arguments + address ::ₘ owned := by
        rw [given, Multiset.add_cons]
      have handed := @Step.handBack licence (before.beside address) arguments value _ framed within
      rw [Multiset.cons_swap] at handed
      exact handed

/-! ## What is written to -/

/-- A kept container is not among those that are written to. -/
theorem Separated.ne_of_shared (separated : before.Separated) {container : Address}
    (shared : container ∈ before.shared) (member : source ∈ before.kept)
    (shape : before.heap.IsContainer source) : container ≠ source := by
  rintro rfl
  obtain ⟨owner, rank, certified⟩ := separated.heap
  exact certified.not_mem_lent_of_mem_kept member shape
    (Multiset.mem_add.mpr (Or.inl shared))

/-- A step leaves what is not written to as it was, if it leaves it alive. -/
theorem Step.payload?_eq (step : Step licence before after) {address : Address}
    (small : address < before.heap.cells.size)
    (apart : ∀ {container}, container ∈ before.shared → before.heap.IsContainer container →
      container ≠ address)
    (alive : after.heap.payload? address ≠ none) :
    after.heap.payload? address = before.heap.payload? address := by
  have remaining : ∀ {heap : Heap}, before.heap.Remains heap → heap.payload? address ≠ none →
      heap.payload? address = before.heap.payload? address :=
    fun remains => remains.survives.payload?_eq small
  cases step with
  | craft makes split => exact makes.crafted.survives.payload?_eq small alive
  | cache value =>
      have survives := (Heap.Survives.allocate before.heap value.type (.scalar value)).trans
        (Heap.Remains.retain _ (before.heap.newScalar value).1).survives
      exact survives.payload?_eq small alive
  | duplicate scalar => exact remaining (Heap.Remains.retain _ _) alive
  | share shown => exact remaining (Heap.Remains.retain _ _) alive
  | lower given => rfl
  | giveBack given => exact remaining (Heap.Remains.release _ _) alive
  | bind inside previous given allowed =>
      exact remaining ((Heap.Remains.enterSlot _ _).trans (Heap.Remains.leaveSlots _ _)) alive
  | push => rfl
  | pop last => exact remaining (Heap.Remains.leaveSlots _ _) alive
  | skip depth => rfl
  | amend shared found refills given =>
      have shape : before.heap.IsContainer _ :=
        ⟨_, Heap.payload?_of_get? found, refills.exchange.1⟩
      exact (Heap.replaces_setPayload found).spared (apart shared shape)
  | @extend dict key entries owned shared payload absent given =>
      have replaces := (Heap.createEntry_replaces key payload).2
      have spared := replaces.spared (apart shared ⟨_, payload, trivial⟩)
      have made := (Heap.Crafted.newDefault before.heap _).survives.payload?_eq small
        (spared ▸ alive)
      exact spared.trans made
  | keep given => exact remaining (Heap.Remains.setPinned _ _ _) alive
  | take given => exact remaining (Heap.Remains.setPinned _ _ _) alive
  | handBack given within =>
      exact remaining ((Heap.Remains.retain _ _).trans (Heap.Remains.releaseAll _ _)) alive

/-- What has a handle beside the ledger lives. -/
theorem Orderly.alive_beside (orderly : (before.beside source).Orderly) :
    before.heap.payload? source ≠ none := by
  have referred : source ∈ (before.beside source).handles := by
    simp [handles, beside]
  obtain ⟨object, alive⟩ := orderly.balanced.heap.alive (Multiset.mem_add.mpr (Or.inr referred))
  show (before.beside source).heap.payload? source ≠ none
  simp [Heap.payload?_of_get? alive]

/-! ## Containers in shelter -/

/-- An orderly ledger beside a container, which holds what it is known to hold. -/
structure Shelters (source : Address) (payload : Payload) (ledger : Ledger) : Prop where
  orderly : (ledger.beside source).Orderly
  payload : ledger.heap.payload? source = some payload

theorem Shelters.step (container : payload.IsContainer) :
    Lasting licence (Shelters source payload) := by
  intro before after step shelters
  have framed := step.beside source
  have orderly := Orderly.step framed shelters.orderly
  have member : source ∈ (before.beside source).kept := by
    simp [kept, beside]
  have shape : (before.beside source).heap.IsContainer source :=
    ⟨payload, shelters.payload, container⟩
  have same := framed.payload?_eq shape.lt_size
    (fun shared _ => shelters.orderly.separated.ne_of_shared shared member shape)
    orderly.alive_beside
  exact ⟨orderly, same.trans shelters.payload⟩

end Ledger

end ScriptEngine
