import ScriptEngine.Builtin.Inspection
import ScriptEngine.Proofs.Abreast.Statements

/-!
# Built-in functions side by side

A built-in function is impartial if it answers linked arguments alike: with the same new
scalar, with the same failure, or with handles on linked objects that the arguments lead to.
All that do not report how many objects or slots there are do so; the one that compares
addresses needs links that are not loose.
-/

namespace ScriptEngine

open Evaluation

variable {caching : Caching} {depth : Nat} {hands : Hands} {state other : State}
variable {links : Links} {loose : Prop}

/-- Answers given in two heaps. -/
inductive BuiltinResult.Beside (links : Links) (arguments others : List Address)
    (left right : Heap) (output : Output) : BuiltinResult → BuiltinResult → Prop where
  | scalar (value : Scalar) (text : String) :
      Beside links arguments others left right output
        (Builtin.computed (left.newScalar value) (output.write text))
        (Builtin.computed (right.newScalar value) (output.write text))
  | failure (failure : Failure) :
      Beside links arguments others left right output ⟨.error failure, left, output⟩
        ⟨.error failure, right, output⟩
  | handBack {first second : Address} :
      links first second → left.Within first arguments → right.Within second others →
        Beside links arguments others left right output
          (Builtin.computed (first, left.retain first) output)
          (Builtin.computed (second, right.retain second) output)

namespace Builtin

/-- Whether linked arguments are answered alike, along links that may be loose or not. -/
def Impartial (loose : Prop) (builtin : Builtin) : Prop :=
  ∀ {left right : Heap} {links : Links}, left.Matches right links loose → left.Grounded →
    right.Grounded → ∀ pairs : List (Address × Address), (∀ pair ∈ pairs, links pair.1 pair.2) →
      ∀ output : Output, BuiltinResult.Beside links (pairs.map Prod.fst) (pairs.map Prod.snd) left
        right output (builtin.action (pairs.map Prod.fst) left output)
        (builtin.action (pairs.map Prod.snd) right output)

variable {left right : Heap} {arguments others : List Address} {output : Output}

/-- A scalar answer with nothing printed. -/
theorem beside_scalar (value : Scalar) :
    BuiltinResult.Beside links arguments others left right output
      (computed (left.newScalar value) output) (computed (right.newScalar value) output) := by
  have written := @BuiltinResult.Beside.scalar links arguments others left right output value ""
  rwa [output.write_empty] at written

/-- Calls with a wrong number of arguments fail alike. -/
theorem Impartial.invoke {builtin : Builtin} (impartial : builtin.Impartial loose)
    (agree : left.Matches right links loose) (grounded : left.Grounded)
    (grounded' : right.Grounded) {pairs : List (Address × Address)}
    (linked : ∀ pair ∈ pairs, links pair.1 pair.2) (output : Output) :
    BuiltinResult.Beside links (pairs.map Prod.fst) (pairs.map Prod.snd) left right output
      (builtin.invoke (pairs.map Prod.fst) left output)
      (builtin.invoke (pairs.map Prod.snd) right output) := by
  unfold Builtin.invoke
  rw [List.length_map, List.length_map]
  split
  · exact impartial agree grounded grounded' pairs linked output
  · exact .failure _

/-! ## Printing -/

/-- Linked arguments are shown alike. -/
theorem printed_eq (agree : left.Matches right links loose) (grounded : left.Grounded)
    (grounded' : right.Grounded) {pairs : List (Address × Address)}
    (linked : ∀ pair ∈ pairs, links pair.1 pair.2) :
    printed left (pairs.map Prod.fst) = printed right (pairs.map Prod.snd) := by
  unfold printed
  rw [List.map_map, List.map_map]
  refine congrArg String.join (List.map_congr_left fun pair member => ?_)
  exact congrArg (Tree.render false) (agree.tree_eq grounded grounded' (linked pair member))

theorem write_beside (agree : left.Matches right links loose) (grounded : left.Grounded)
    (grounded' : right.Grounded) {pairs : List (Address × Address)}
    (linked : ∀ pair ∈ pairs, links pair.1 pair.2) (ending : String) (output : Output) :
    BuiltinResult.Beside links (pairs.map Prod.fst) (pairs.map Prod.snd) left right output
      (write ending (pairs.map Prod.fst) left output)
      (write ending (pairs.map Prod.snd) right output) := by
  simp only [write, printed_eq agree grounded grounded' linked]
  exact .scalar _ _

theorem print_impartial : print.Impartial loose :=
  fun agree grounded grounded' _ linked => write_beside agree grounded grounded' linked ""

theorem println_impartial : println.Impartial loose :=
  fun agree grounded grounded' _ linked => write_beside agree grounded grounded' linked "\n"

/-! ## Inspection -/

theorem unaryFunction_impartial {name : String} {result : StaticType}
    {action : Address → Heap → Output → BuiltinResult}
    (answers : ∀ {left right : Heap} {links : Links} {first second : Address},
      left.Matches right links loose → left.Grounded → right.Grounded → links first second →
        ∀ (arguments others : List Address) (output : Output),
          BuiltinResult.Beside links (first :: arguments) (second :: others) left right output
            (action first left output) (action second right output)) :
    (unaryFunction name result action).Impartial loose := by
  intro left right links agree grounded grounded' pairs linked output
  cases pairs with
  | nil => exact .failure _
  | cons pair pairs =>
      exact answers agree grounded grounded' (linked pair List.mem_cons_self) _ _ output

theorem binaryFunction_impartial {name : String} {result : StaticType}
    {action : Address → Address → Heap → Output → BuiltinResult}
    (answers : ∀ {left right : Heap} {links : Links} {first second first' second' : Address},
      left.Matches right links loose → left.Grounded → right.Grounded → links first first' →
        links second second' → ∀ (arguments others : List Address) (output : Output),
          BuiltinResult.Beside links (first :: second :: arguments) (first' :: second' :: others)
            left right output (action first second left output)
            (action first' second' right output)) :
    (binaryFunction name result action).Impartial loose := by
  intro left right links agree grounded grounded' pairs linked output
  match pairs with
  | [] => exact .failure _
  | [pair] => exact .failure _
  | one :: another :: pairs =>
      exact answers agree grounded grounded' (linked one (by simp)) (linked another (by simp)) _ _
        output

theorem len_impartial : len.Impartial loose := by
  apply unaryFunction_impartial
  intro left right links first second agree _ _ linked arguments others output
  obtain ⟨payload, other, found, found', related⟩ := agree.payload linked
  have lengths : payload.length? = other.length? := by
    cases related.beside with
    | scalar value => rfl
    | vector parts => exact congrArg some parts.length_eq
    | dict parts => exact congrArg some parts.length_eq
  simp only [found, found', Option.bind_some, lengths, agree.kind_eq linked]
  split
  · exact beside_scalar _
  · exact .failure _

theorem typeOf_impartial : typeOf.Impartial loose := by
  apply unaryFunction_impartial
  intro left right links first second agree _ _ linked arguments others output
  rw [agree.type linked]
  exact beside_scalar _

theorem kindOf_impartial : kindOf.Impartial loose := by
  apply unaryFunction_impartial
  intro left right links first second agree _ _ linked arguments others output
  rw [agree.kind_eq linked]
  exact beside_scalar _

theorem quote_impartial : quote.Impartial loose := by
  apply unaryFunction_impartial
  intro left right links first second agree grounded grounded' linked arguments others output
  rw [Heap.render, Heap.render, agree.tree_eq grounded grounded' linked]
  exact beside_scalar _

/-- Links that are not loose tell objects apart in both directions. -/
theorem same_impartial : same.Impartial False := by
  apply binaryFunction_impartial
  intro left right links first second first' second' agree _ _ linked linked' arguments others
    output
  have apart : (first == second) = (first' == second') := by
    rw [Bool.eq_iff_iff, beq_iff_eq, beq_iff_eq]
    constructor
    · rintro rfl
      exact (agree.shared linked linked').resolve_right fun loosely => loosely.1
    · rintro rfl
      exact agree.only linked linked'
  rw [apart]
  exact beside_scalar _

theorem equals_impartial : equals.Impartial loose := by
  apply binaryFunction_impartial
  intro left right links first second first' second' agree grounded grounded' linked linked'
    arguments others output
  rw [agree.equals_eq grounded grounded' linked linked']
  exact beside_scalar _

theorem pass_impartial : pass.Impartial loose := by
  apply unaryFunction_impartial
  intro left right links first second _ _ _ linked arguments others output
  exact .handBack linked (Or.inl (by simp)) (Or.inl (by simp))

theorem elementAt_impartial : elementAt.Impartial loose := by
  apply binaryFunction_impartial
  intro left right links container position container' position' agree _ _ linked linked'
    arguments others output
  have within : ∀ {heap : Heap} {container element position : Address} {index : Nat}
      {arguments : List Address}, heap.element? container index = some element →
        heap.Within element ((container :: position :: arguments : List Address)) := by
    intro heap container element position index arguments found
    obtain ⟨object, alive, offered⟩ := Heap.offered_of_element? found
    exact Or.inr ⟨container, by simp, object, alive, Payload.mem_children_of_mem_offers offered⟩
  simp only [agree.scalar?_eq linked']
  generalize right.scalar? position' = scalar
  cases scalar with
  | none => exact beside_scalar _
  | some value =>
      cases value with
      | int number =>
          by_cases reached : 0 ≤ number.toInt
          · simp only [if_pos reached]
            rcases cases_of_rel (agree.element?_linked linked number.toInt.toNat) with
              ⟨absent, absent'⟩ | ⟨_, _, found, found', both⟩
            · rw [absent, absent']
              exact beside_scalar _
            · rw [found, found']
              exact .handBack both (within found) (within found')
          · simp only [if_neg reached]
            exact beside_scalar _
      | _ => exact beside_scalar _

theorem count_impartial : count.Impartial loose := by
  intro left right links _ _ _ pairs _ output
  simp only [count, List.length_map]
  exact beside_scalar _

theorem refuse_impartial : refuse.Impartial loose := by
  intro left right links _ _ _ pairs _ output
  simp only [refuse, List.length_map]
  exact .failure _

end Builtin

namespace Linked

theorem write (linked : Linked caching depth hands state other) (text : String) :
    Linked caching depth hands { state with output := state.output.write text }
      { other with output := other.output.write text } := by
  have written : ∀ {hand : Hand} {state : State}, Holding Ledger.Orderly depth hand state →
      Holding Ledger.Orderly depth hand { state with output := state.output.write text } :=
    fun held => (stable depth).settle _ (Heap.Fashioned.refl _ 0).makes held
  refine linked.survive (written linked.left) (written linked.right) rfl rfl (.refl _) (.refl _)
    fun joined => ?_
  have along := joined.along
  exact ⟨⟨along.scopes, along.calls, along.loops, by simp only [along.output]⟩, joined.has⟩

/-- Arguments are given back for handles on what they lead to. -/
theorem handBack {pairs : List (Address × Address)} {first second : Address}
    (linked : Linked caching depth (hands.ownAll pairs) state other)
    (joined : State.Joined caching (hands.ownAll pairs) state other links)
    (matched : links first second)
    (within : state.heap.Within first (pairs.map Prod.fst : List Address))
    (within' : other.heap.Within second (pairs.map Prod.snd : List Address)) :
    Linked caching depth (hands.own (first, second))
      { state with heap := (state.heap.retain first).releaseAll (pairs.map Prod.fst) }
      { other with heap := (other.heap.retain second).releaseAll (pairs.map Prod.snd) } := by
  have left := linked.left
  have right := linked.right
  rw [Hands.left_ownAll] at left
  rw [Hands.right_ownAll] at right
  have after : Holding Ledger.Orderly depth (hands.own (first, second)).left
      { state with heap := (state.heap.retain first).releaseAll (pairs.map Prod.fst) } := by
    rw [Hands.left_own]
    exact (stable depth).onHeap left (.handBack rfl within)
  have after' : Holding Ledger.Orderly depth (hands.own (first, second)).right
      { other with heap := (other.heap.retain second).releaseAll (pairs.map Prod.snd) } := by
    rw [Hands.right_own]
    exact (stable depth).onHeap right (.handBack rfl within')
  have survives : ∀ (heap : Heap) (address : Address) (addresses : List Address),
      Heap.Survives heap ((heap.retain address).releaseAll addresses) :=
    fun heap address addresses =>
      ((Heap.Remains.retain heap address).trans (Heap.Remains.releaseAll _ addresses)).survives
  apply advance after after' (joined.along.onHeap _ _)
  · intro one counterpart held
    rcases Hands.has_own_iff.mp held with same | old
    · obtain ⟨rfl, rfl⟩ := Prod.mk.inj same
      exact matched
    · exact joined.has (Hands.has_ownAll_iff.mpr (Or.inr old))
  · exact joined.keeps.carry after after' rfl rfl (survives _ _ _).steady id
      (.of_imp fun known => known.1)
  · exact joined.agree.survive (survives _ _ _) (survives _ _ _) after.sound.balanced.closed
      after'.sound.balanced.closed
  · exact id

end Linked

namespace Evaluation

variable {setup : Setup} {pairs : List (Address × Address)}

theorem callBuiltin_abreast {name : Name}
    (impartial : ∀ builtin, setup.builtins.get? (setup.program.names.lookup name) = some builtin →
      builtin.Impartial caching.Loose) :
    Abreast (Linked caching depth (hands.ownAll pairs))
      (callBuiltin setup name (pairs.map Prod.fst)) (callBuiltin setup name (pairs.map Prod.snd))
      (fun address other => Linked caching depth (hands.own (address, other)))
      (Linked caching depth hands) := by
  cases found : setup.builtins.get? (setup.program.names.lookup name) with
  | none =>
      simp only [callBuiltin, found]
      exact Abreast.holding pairs (Abreast.fail _ fun _ _ linked => linked)
  | some builtin =>
      simp only [callBuiltin, found]
      intro state state' linked
      obtain ⟨links, joined⟩ := linked.joined
      obtain ⟨heap', scopes', calls', loops', literals', output'⟩ := state'
      obtain rfl : state.output = output' := joined.along.output
      have known : ∀ pair ∈ pairs, links pair.1 pair.2 :=
        fun pair member => joined.has (Hands.has_ownAll_iff.mpr (Or.inl member))
      have answers := Builtin.Impartial.invoke (impartial builtin found) joined.agree
        linked.left.sound.grounded linked.right.sound.grounded known state.output
      simp only [Evaluation.holding, Evaluation.ensuring, invokeBuiltin]
      generalize builtin.invoke (pairs.map Prod.fst) state.heap state.output = one,
        builtin.invoke (pairs.map Prod.snd) heap' state.output = another at answers ⊢
      cases answers with
      | scalar value text =>
          have made := (linked.write text).create (Heap.Fashioned.newScalar _ value).makes
            (Heap.Fashioned.newScalar _ value).makes fun joined => joined.agree.newScalar value
          rw [Hands.own_ownAll] at made
          exact .value made.release
      | failure failure => exact .failure failure linked.release
      | handBack matched within within' =>
          exact .value (linked.handBack joined matched within within')

end Evaluation

end ScriptEngine
