import ScriptEngine.Proofs.Abreast.Objects
import ScriptEngine.Proofs.Custody.Calls

/-!
# Frames of two runs

Two stacks of scope frames go along with each other if they bind the same names, in
the same order, to linked objects and are marked alike; two stacks of calls, if their
frames differ at most in the objects that they keep as results, which are linked.
Names then resolve to the same frames, and signals are seen alike.
-/

namespace ScriptEngine

variable {links links' : Links}

/-! ## Scope frames -/

structure ScopeFrame.Along (links : Links) (frame other : ScopeFrame) : Prop where
  bindings : List.Forall₂ (fun binding counterpart =>
    binding.1 = counterpart.1 ∧ links binding.2 counterpart.2) frame.bindings other.bindings
  skipsRest : frame.skipsRest = other.skipsRest

namespace ScopeFrame.Along

variable {frame other : ScopeFrame}

theorem values (along : frame.Along links other) :
    List.Forall₂ links frame.values other.values := by
  unfold ScopeFrame.values
  rw [List.forall₂_map_left_iff, List.forall₂_map_right_iff]
  exact along.bindings.imp fun _ _ both => both.2

theorem get? (along : frame.Along links other) (name : Name) :
    Option.Rel links (frame.get? name) (other.get? name) := by
  have bindings := along.bindings
  unfold ScopeFrame.get?
  generalize frame.bindings = here, other.bindings = there at bindings ⊢
  induction bindings with
  | nil => exact .none
  | @cons binding counterpart _ _ both _ induction =>
      obtain ⟨known, value⟩ := binding
      obtain ⟨known', value'⟩ := counterpart
      obtain ⟨rfl, linked⟩ := both
      simp only [List.lookup_cons]
      cases name == known with
      | true => exact .some linked
      | false => exact induction

theorem binds_eq (along : frame.Along links other) (name : Name) :
    frame.binds name = other.binds name := by
  unfold binds
  rcases cases_of_rel (along.get? name) with ⟨unbound, unbound'⟩ | ⟨_, _, bound, bound', _⟩
  · rw [unbound, unbound']
  · rw [bound, bound']
    rfl

theorem put (along : frame.Along links other) (name : Name) {value value' : Address}
    (linked : links value value') : (frame.put name value).Along links (other.put name value') := by
  unfold ScopeFrame.put
  rw [along.binds_eq name]
  split
  · refine ⟨?_, along.skipsRest⟩
    rw [List.forall₂_map_left_iff, List.forall₂_map_right_iff]
    apply along.bindings.imp
    intro binding counterpart both
    rw [both.1]
    split
    · exact ⟨rfl, linked⟩
    · exact both
  · exact ⟨.cons ⟨rfl, linked⟩ along.bindings, along.skipsRest⟩

theorem skip (along : frame.Along links other) :
    ScopeFrame.Along links { frame with skipsRest := true } { other with skipsRest := true } :=
  ⟨along.bindings, rfl⟩

end ScopeFrame.Along

def Scopes.Along (links : Links) (scopes others : Scopes) : Prop :=
  List.Forall₂ (ScopeFrame.Along links) scopes.frames others.frames

namespace Scopes.Along

variable {scopes others : Scopes}

/-- Only what is bound has to be looked at. -/
theorem imp (along : scopes.Along links others)
    (implies : ∀ {first second}, first ∈ scopes.bound → second ∈ others.bound →
      links first second → links' first second) : scopes.Along links' others := by
  apply forall₂_of_mem along
  intro frame other member member' both
  refine ⟨?_, both.skipsRest⟩
  apply forall₂_of_mem both.bindings
  intro binding counterpart inside inside' linked
  refine ⟨linked.1, implies ?_ ?_ linked.2⟩
  · exact List.mem_flatMap.mpr ⟨frame, member, List.mem_map_of_mem inside⟩
  · exact List.mem_flatMap.mpr ⟨other, member', List.mem_map_of_mem inside'⟩

theorem depth_eq (along : scopes.Along links others) : scopes.depth = others.depth := by
  have lengths := List.Forall₂.length_eq along
  simpa [Scopes.frames, Scopes.depth] using lengths

theorem get? (along : scopes.Along links others) (position : Nat) (name : Name) :
    Option.Rel links (scopes.get? position name) (others.get? position name) := by
  unfold Scopes.get?
  rw [Scopes.frame?_eq, Scopes.frame?_eq]
  rcases cases_of_rel (rel_getElem?_of_forall₂ along position) with ⟨none, none'⟩ |
    ⟨_, _, some, some', both⟩
  · rw [none, none']
    exact .none
  · rw [some, some']
    exact both.get? name

theorem binds_eq (along : scopes.Along links others) (position : Nat) (name : Name) :
    scopes.binds position name = others.binds position name := by
  unfold Scopes.binds
  rcases cases_of_rel (along.get? position name) with ⟨unbound, unbound'⟩ | ⟨_, _, bound, bound', _⟩
  · rw [unbound, unbound']
  · rw [bound, bound']
    rfl

theorem resolve?_eq (along : scopes.Along links others) (name : Name) (floor : Nat) :
    scopes.resolve? name floor = others.resolve? name floor := by
  have search : ∀ count, scopes.search name floor count = others.search name floor count := by
    intro count
    induction count with
    | zero => rfl
    | succ count induction =>
        rw [Scopes.search, Scopes.search, induction, along.binds_eq]
  rw [Scopes.resolve?, Scopes.resolve?, search, along.depth_eq, along.binds_eq]

theorem lookup? (along : scopes.Along links others) (name : Name) (floor : Nat) :
    Option.Rel links (scopes.lookup? name floor) (others.lookup? name floor) := by
  unfold Scopes.lookup?
  rw [along.resolve?_eq]
  cases others.resolve? name floor with
  | none => exact .none
  | some position => exact along.get? position name

theorem modifyFrame (along : scopes.Along links others) (position : Nat)
    {change change' : ScopeFrame → ScopeFrame}
    (keeps : ∀ {frame other : ScopeFrame}, frame.Along links other →
      (change frame).Along links (change' other)) :
    (scopes.modifyFrame position change).Along links (others.modifyFrame position change') := by
  unfold Scopes.Along
  rw [Scopes.frames_modifyFrame, Scopes.frames_modifyFrame]
  exact modify_of_forall₂ along position keeps

theorem push (along : scopes.Along links others) : scopes.push.Along links others.push := by
  unfold Scopes.Along
  rw [Scopes.frames_push, Scopes.frames_push]
  exact List.rel_append along (.cons ⟨.nil, rfl⟩ .nil)

theorem nested (along : scopes.Along links others) :
    List.Forall₂ (ScopeFrame.Along links) scopes.nested.toList others.nested.toList :=
  (List.forall₂_cons.mp along).2

/-- The innermost frames, if they can be removed. -/
theorem back? (along : scopes.Along links others) :
    Option.Rel (ScopeFrame.Along links) scopes.nested.back? others.nested.back? := by
  have nested := along.nested
  rw [← Array.getLast?_toList, ← Array.getLast?_toList, List.getLast?_eq_getElem?,
    List.getLast?_eq_getElem?, nested.length_eq]
  exact rel_getElem?_of_forall₂ nested _

theorem innermost (along : scopes.Along links others) :
    scopes.innermost.Along links others.innermost := by
  unfold Scopes.innermost
  rcases cases_of_rel along.back? with ⟨none, none'⟩ | ⟨_, _, some, some', both⟩
  · rw [none, none']
    exact (List.forall₂_cons.mp along).1
  · rw [some, some']
    exact both

theorem dropFrame (along : scopes.Along links others) :
    scopes.dropFrame.Along links others.dropFrame := by
  refine .cons (List.forall₂_cons.mp along).1 ?_
  have nested := along.nested
  unfold Scopes.dropFrame
  rw [Array.toList_pop, Array.toList_pop, List.dropLast_eq_take, List.dropLast_eq_take,
    nested.length_eq]
  exact List.forall₂_take _ nested

theorem skipFrom (along : scopes.Along links others) (depth : Nat) :
    (scopes.skipFrom depth).Along links (others.skipFrom depth) := by
  unfold Scopes.skipFrom
  rw [along.depth_eq]
  generalize List.range' depth (others.depth - depth) = positions
  induction positions generalizing scopes others with
  | nil => exact along
  | cons position positions induction =>
      exact induction (along.modifyFrame position fun both => both.skip)

end Scopes.Along

/-! ## Calls -/

structure CallFrame.Along (links : Links) (frame other : CallFrame) : Prop where
  function : frame.function = other.function
  callSite : frame.callSite = other.callSite
  scopeBase : frame.scopeBase = other.scopeBase
  loopBase : frame.loopBase = other.loopBase
  returned : frame.returned = other.returned
  result : Option.Rel links frame.result other.result

structure Calls.Along (links : Links) (calls others : Calls) : Prop where
  frames : List.Forall₂ (CallFrame.Along links) calls.frames.toList others.frames.toList
  limit : calls.limit = others.limit

namespace Calls.Along

variable {calls others : Calls}

/-- Only results have to be looked at. -/
theorem imp (along : calls.Along links others)
    (implies : ∀ {first second}, first ∈ calls.results → second ∈ others.results →
      links first second → links' first second) : calls.Along links' others := by
  refine ⟨forall₂_of_mem along.frames ?_, along.limit⟩
  intro frame other member member' both
  refine ⟨both.function, both.callSite, both.scopeBase, both.loopBase, both.returned, ?_⟩
  rcases cases_of_rel both.result with ⟨none, none'⟩ | ⟨first, second, kept, kept', linked⟩
  · rw [none, none']
    exact .none
  · have inside : first ∈ calls.results := List.mem_filterMap.mpr ⟨frame, member, kept⟩
    have inside' : second ∈ others.results := List.mem_filterMap.mpr ⟨other, member', kept'⟩
    rw [kept, kept']
    exact .some (implies inside inside' linked)

theorem depth_eq (along : calls.Along links others) : calls.depth = others.depth := by
  have lengths := along.frames.length_eq
  simpa [Calls.depth] using lengths

theorem current? (along : calls.Along links others) :
    Option.Rel (CallFrame.Along links) calls.current? others.current? := by
  unfold Calls.current?
  rw [← Array.getLast?_toList, ← Array.getLast?_toList, List.getLast?_eq_getElem?,
    List.getLast?_eq_getElem?, along.frames.length_eq]
  exact rel_getElem?_of_forall₂ along.frames _

theorem push {frame other : CallFrame} (along : calls.Along links others)
    (both : frame.Along links other) : (calls.push frame).Along links (others.push other) := by
  refine ⟨?_, along.limit⟩
  rw [Calls.push, Calls.push, Array.toList_push, Array.toList_push]
  exact List.rel_append along.frames (.cons both .nil)

theorem pop (along : calls.Along links others) : calls.pop.Along links others.pop := by
  refine ⟨?_, along.limit⟩
  rw [Calls.pop, Calls.pop, Array.toList_pop, Array.toList_pop, List.dropLast_eq_take,
    List.dropLast_eq_take, along.frames.length_eq]
  exact List.forall₂_take _ along.frames

theorem modifyCurrent {frame other : CallFrame} (along : calls.Along links others)
    (both : frame.Along links other) :
    (calls.modifyCurrent fun _ => frame).Along links (others.modifyCurrent fun _ => other) := by
  refine ⟨?_, along.limit⟩
  rw [Calls.modifyCurrent, Calls.modifyCurrent, Array.toList_modify, Array.toList_modify,
    along.depth_eq]
  exact modify_of_forall₂ along.frames _ fun _ => both

/-! ### What is seen of calls -/

theorem scopeFloor_eq (along : calls.Along links others) :
    calls.scopeFloor = others.scopeFloor := by
  unfold Calls.scopeFloor
  rcases cases_of_rel along.current? with ⟨none, none'⟩ | ⟨_, _, some, some', both⟩
  · rw [none, none']
  · rw [some, some']
    exact both.scopeBase

theorem loopBase_eq (along : calls.Along links others) : calls.loopBase = others.loopBase := by
  unfold Calls.loopBase
  rcases cases_of_rel along.current? with ⟨none, none'⟩ | ⟨_, _, some, some', both⟩
  · rw [none, none']
  · rw [some, some']
    exact both.loopBase

theorem hasReturned_eq (along : calls.Along links others) :
    calls.hasReturned = others.hasReturned := by
  unfold Calls.hasReturned
  rcases cases_of_rel along.current? with ⟨none, none'⟩ | ⟨_, _, some, some', both⟩
  · rw [none, none']
  · rw [some, some']
    exact both.returned

theorem exceeded?_eq (along : calls.Along links others) : calls.exceeded? = others.exceeded? := by
  unfold Calls.exceeded?
  rw [along.limit, along.depth_eq]

theorem attach_eq (along : calls.Along links others) (names : Interner) (failure : Failure) :
    calls.attach names failure = others.attach names failure := by
  have frames := @map_eq_of_forall₂ _ _ _ _ _ _
    (fun frame : CallFrame => (⟨names.lookup frame.function, frame.callSite⟩ : Activation))
    (fun frame : CallFrame => (⟨names.lookup frame.function, frame.callSite⟩ : Activation))
    along.frames fun both => by rw [both.function, both.callSite]
  unfold Calls.attach Calls.backtrace
  rw [List.map_reverse, List.map_reverse, frames]

end Calls.Along

end ScriptEngine
