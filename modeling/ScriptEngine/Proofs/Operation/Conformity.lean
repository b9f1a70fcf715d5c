import ScriptEngine.Proofs.Operation.Casts
import ScriptEngine.Proofs.Ownership.Duplicates

/-!
# Casts and static types

A cast looks at the kind of its target only.  What it computes is a value of the target
type, but a copy keeps the type of what is copied.  So a cast gives a value that conforms
to its target at every depth, unless it copies a value whose type has the kind of the
target and other parameters.
-/

namespace ScriptEngine

namespace Kind

/-- How many parameters types of a kind take. -/
def arity : Kind → Nat
  | .vector => 1
  | .dict => 2
  | _ => 0

/-- The kind of the values that variables of a kind hold. -/
def carried : Kind → Kind
  | .args => .none
  | kind => kind

end Kind

theorem Scalar.arity_kind (value : Scalar) : value.kind.arity = 0 := by
  cases value <;> rfl

theorem Scalar.carried_kind (value : Scalar) : value.kind.carried = value.kind := by
  cases value <;> rfl

namespace StaticType

/-- A type has the parameters that its kind takes. -/
def Saturated (type : StaticType) : Prop :=
  type.parameters.length = type.kind.arity

end StaticType

/-! ## Trees of a type -/

namespace Tree

def kind : Tree → Kind
  | .scalar _ value => value.kind
  | .vector _ _ => .vector
  | .dict _ _ => .dict

mutual

/-- A tree is of a type, whatever is `const`, and so are its elements, keys and values of
the parameters of the type. -/
def Conforms : Tree → StaticType → Prop
  | .scalar type value, target =>
      type.agrees target = true ∧ value.kind = target.kind.carried
  | .vector type elements, target =>
      type.agrees target = true ∧ target.kind = .vector ∧
        ConformAll elements (target.parameter 0)
  | .dict type entries, target =>
      type.agrees target = true ∧ target.kind = .dict ∧
        ConformEntries entries (target.parameter 0) (target.parameter 1)

def ConformAll : List Tree → StaticType → Prop
  | [], _ => True
  | tree :: trees, target => tree.Conforms target ∧ ConformAll trees target

def ConformEntries : List (Tree × Tree) → StaticType → StaticType → Prop
  | [], _, _ => True
  | (key, value) :: entries, first, second =>
      key.Conforms first ∧ value.Conforms second ∧ ConformEntries entries first second

end

theorem Conforms.agrees {tree : Tree} {target : StaticType} (conforms : tree.Conforms target) :
    tree.type.agrees target = true := by
  cases tree with
  | scalar type value => exact conforms.1
  | vector type elements => exact conforms.1
  | dict type entries => exact conforms.1

mutual

theorem Conforms.trans : (tree : Tree) → ∀ {type target : StaticType}, tree.Conforms type →
    type.agrees target = true → tree.Conforms target
  | .scalar own _, type, target, ⟨agreed, carried⟩, same =>
      ⟨StaticType.agrees_trans own type target agreed same,
        (StaticType.agrees_iff.mp same).1 ▸ carried⟩
  | .vector own elements, type, target, ⟨agreed, shape, parts⟩, same =>
      ⟨StaticType.agrees_trans own type target agreed same,
        (StaticType.agrees_iff.mp same).1 ▸ shape,
        conformAll_trans elements parts (StaticType.agrees_parameter same 0)⟩
  | .dict own entries, type, target, ⟨agreed, shape, parts⟩, same =>
      ⟨StaticType.agrees_trans own type target agreed same,
        (StaticType.agrees_iff.mp same).1 ▸ shape,
        conformEntries_trans entries parts (StaticType.agrees_parameter same 0)
          (StaticType.agrees_parameter same 1)⟩

theorem conformAll_trans : (trees : List Tree) → ∀ {type target : StaticType},
    ConformAll trees type → type.agrees target = true → ConformAll trees target
  | [], _, _, _, _ => trivial
  | tree :: trees, _, _, ⟨conforms, all⟩, same =>
      ⟨conforms.trans tree same, conformAll_trans trees all same⟩

theorem conformEntries_trans : (pairs : List (Tree × Tree)) →
    ∀ {type type' target target' : StaticType}, ConformEntries pairs type type' →
      type.agrees target = true → type'.agrees target' = true →
        ConformEntries pairs target target'
  | [], _, _, _, _, _, _, _ => trivial
  | (key, value) :: pairs, _, _, _, _, ⟨conforms, conforms', all⟩, same, same' =>
      ⟨conforms.trans key same, Conforms.trans value conforms' same',
        conformEntries_trans pairs all same same'⟩

end

/-- What conforms to its own type conforms to the types that agree with it. -/
theorem Conforms.iff_agrees {tree : Tree} (conforms : tree.Conforms tree.type)
    {target : StaticType} : tree.Conforms target ↔ tree.type.agrees target = true :=
  ⟨Conforms.agrees, conforms.trans tree⟩

end Tree

/-! ## Conversions -/

/-- Values of one kind are cast to those near them of the other. -/
def Kind.Approximates : Kind → Kind → Prop
  | .int, .float | .float, .int => True
  | _, _ => False

/-- The values that casts take to a kind. -/
inductive Payload.CastsTo : Payload → Kind → Prop
  | same (payload : Payload) : payload.CastsTo payload.kind
  | widened (word : Int64) : (Payload.scalar (.int word)).CastsTo .float
  | truncated {number : Binary32} (finite : number.truncate? ≠ none) :
      (Payload.scalar (.float number)).CastsTo .int
  | recast {value : Scalar} {target : Kind} {number : Int} (stands : value.number? = some number)
      (recasts : value.kind.Recasts target) (inside : target.Includes number) :
      (Payload.scalar value).CastsTo target

/-- What a conversion can come to. -/
inductive Converts (payload : Payload) (target : StaticType) : Except Cause Conversion → Prop
  | duplicate (same : payload.kind = target.kind) : Converts payload target (.ok .duplicate)
  | computed {value : Scalar} (different : payload.kind ≠ target.kind)
      (casts : payload.CastsTo target.kind) (same : value.kind = target.kind) :
      Converts payload target (.ok (.computed value))
  | failed {cause : Cause} (excluded : ¬ payload.CastsTo target.kind)
      (known : cause = .integerOverflow "conversion" ∨
        ∃ subject, cause = .invalidCast subject target.text) :
      Converts payload target (.error cause)

section

variable {payload : Payload} {target : StaticType} {value : Scalar} {kind aim : Kind} {number : Int}

theorem Kind.Recasts.ne (recasts : kind.Recasts aim) : kind ≠ aim := by
  rintro rfl
  cases kind <;> exact recasts

theorem Kind.Approximates.ne (approximates : kind.Approximates aim) : kind ≠ aim := by
  rintro rfl
  cases kind <;> exact approximates

theorem Scalar.number?_of_recasts (recasts : value.kind.Recasts aim) :
    ∃ number, value.number? = some number := by
  cases value with
  | int _ | usize _ | bool _ | char _ => exact ⟨_, rfl⟩
  | _ => cases aim <;> exact recasts.elim

theorem Payload.castsTo_of_recasts (stands : value.number? = some number)
    (recasts : value.kind.Recasts aim) :
    (Payload.scalar value).CastsTo aim ↔ aim.Includes number := by
  refine ⟨fun casts => ?_, .recast stands recasts⟩
  cases casts with
  | same => exact absurd rfl recasts.ne
  | widened => exact recasts.elim
  | truncated => cases stands
  | recast stands' _ inside => exact Option.some.inj (stands'.symm.trans stands) ▸ inside

theorem Payload.CastsTo.related (casts : payload.CastsTo aim) :
    payload.kind = aim ∨ payload.kind.Approximates aim ∨ payload.kind.Recasts aim := by
  cases casts with
  | same => exact Or.inl rfl
  | widened => exact Or.inr (Or.inl trivial)
  | truncated => exact Or.inr (Or.inl trivial)
  | recast _ recasts _ => exact Or.inr (Or.inr recasts)

theorem StaticType.excludes_known (target : StaticType) (number : Int) :
    target.excludes number = .integerOverflow "conversion" ∨
      ∃ subject, target.excludes number = .invalidCast subject target.text := by
  unfold StaticType.excludes
  split
  · exact Or.inr ⟨_, rfl⟩
  · exact Or.inl rfl

theorem Gives.converts {result : Except Cause Conversion} (gives : Gives result target number)
    (stands : value.number? = some number) (recasts : value.kind.Recasts target.kind) :
    Converts (.scalar value) target result := by
  have casts := Payload.castsTo_of_recasts stands recasts
  by_cases inside : target.kind.Includes number
  · obtain ⟨made, rfl, same, _⟩ := gives.computes inside
    exact .computed recasts.ne (casts.mpr inside) same
  · rw [gives.fails inside]
    exact .failed (mt casts.mp inside) (target.excludes_known number)

theorem Converts.sameKind (exact : payload.CastsTo target.kind → payload.kind = target.kind) :
    Converts payload target (ScriptEngine.sameKind payload target) := by
  by_cases same : payload.kind = target.kind
  · rw [ScriptEngine.sameKind, if_pos same]
    exact .duplicate same
  · rw [ScriptEngine.sameKind, if_neg same]
    exact .failed (mt exact same) (Or.inr ⟨_, rfl⟩)

theorem converts_of_approximates (approximates : payload.kind.Approximates target.kind) :
    Converts payload target (conversion payload target) := by
  obtain ⟨aim, parameters, isConst⟩ := target
  cases payload with
  | vector | dict => cases aim <;> exact approximates.elim
  | scalar value =>
      cases value with
      | int word =>
          cases aim with
          | float => exact .computed approximates.ne (.widened word) rfl
          | _ => exact approximates.elim
      | float number =>
          cases aim with
          | int =>
              cases whole : number.truncate? with
              | some integer =>
                  simp only [conversion, whole]
                  have finite : number.truncate? ≠ none := whole ▸ Option.some_ne_none integer
                  exact .computed approximates.ne (.truncated finite) rfl
              | none =>
                  simp only [conversion, whole]
                  refine .sameKind fun casts => ?_
                  cases casts with
                  | truncated finite => exact absurd whole finite
                  | recast stands _ _ => cases stands
          | _ => exact approximates.elim
      | _ => cases aim <;> exact approximates.elim

/-- What is not related is only copied, if it has the kind already. -/
theorem conversion_of_unrelated (near : ¬ payload.kind.Approximates target.kind)
    (recasts : ¬ payload.kind.Recasts target.kind) :
    conversion payload target = sameKind payload target := by
  obtain ⟨aim, parameters, isConst⟩ := target
  cases payload with
  | vector | dict => rfl
  | scalar value =>
      cases value with
      | int _ | usize _ | float _ | bool _ | char _ =>
          cases aim with
          | int | usize | float | char =>
              first
                | rfl
                | exact absurd trivial near
                | exact absurd trivial recasts
          | _ => rfl
      | _ => rfl

theorem conversion_converts (payload : Payload) (target : StaticType) :
    Converts payload target (conversion payload target) := by
  by_cases near : payload.kind.Approximates target.kind
  · exact converts_of_approximates near
  by_cases recasts : payload.kind.Recasts target.kind
  · cases payload with
    | vector | dict => exact recasts.elim
    | scalar value =>
        obtain ⟨number, stands⟩ := Scalar.number?_of_recasts recasts
        exact (Scalar.StandsFor.gives ⟨rfl, stands⟩ recasts).converts stands recasts
  · rw [conversion_of_unrelated near recasts]
    exact .sameKind fun casts =>
      casts.related.resolve_right (not_or.mpr ⟨near, recasts⟩)

end

/-! ## Casts of objects -/

namespace Heap

variable {heap after : Heap} {source result : Address} {payload : Payload} {target : StaticType}
  {cause : Cause}

theorem type_tree (heap : Heap) (address : Address) :
    (heap.tree address).type = heap.type address := by
  rw [tree, treeWithin_succ, payload?, type]
  cases heap.get? address with
  | none => rfl
  | some object =>
      obtain ⟨type, payload, _⟩ := object
      cases payload <;> rfl

theorem kind_tree (heap : Heap) (address : Address) :
    (heap.tree address).kind = heap.kind address := by
  rw [tree, treeWithin_succ, kind]
  cases heap.payload? address with
  | none => rfl
  | some payload => cases payload <;> rfl

/-- The tree of the result of a cast: that of the source, if this has the kind of the target,
and else a computed value. -/
inductive Shaped (heap : Heap) (source : Address) (target : StaticType) : Tree → Prop
  | copied (same : heap.kind source = target.kind) : Shaped heap source target (heap.tree source)
  | computed {value : Scalar} (different : heap.kind source ≠ target.kind)
      (same : value.kind = target.kind) :
      Shaped heap source target (.scalar value.type value)

/-- What a cast can come to. -/
inductive Casts (heap : Heap) (source : Address) (payload : Payload) (target : StaticType) :
    Except Cause Address × Heap → Prop
  | made {shape : Tree} (casts : payload.CastsTo target.kind)
      (shaped : heap.Shaped source target shape) :
      Casts heap source payload target (.ok (heap.build shape).1, (heap.build shape).2)
  | failed {cause : Cause} (excluded : ¬ payload.CastsTo target.kind)
      (known : cause = .integerOverflow "conversion" ∨
        ∃ subject, cause = .invalidCast subject target.text) :
      Casts heap source payload target (.error cause, heap)

theorem cast_casts (found : heap.payload? source = some payload) (target : StaticType) :
    heap.Casts source payload target (heap.cast source target) := by
  have converts := conversion_converts payload target
  have kindred : heap.kind source = payload.kind := by simp [kind, found]
  simp only [cast, found]
  generalize conversion payload target = converted at converts
  cases converts with
  | duplicate same => exact .made (same ▸ .same payload) (.copied (kindred.trans same))
  | computed different casts same => exact .made casts (.computed (kindred ▸ different) same)
  | failed excluded known => exact .failed excluded known

section

variable {shape : Tree}

theorem Shaped.of_cast (found : heap.payload? source = some payload)
    (done : heap.cast source target = (.ok result, after)) :
    ∃ shape, heap.Shaped source target shape ∧ heap.build shape = (result, after) ∧
      after.tree result = shape := by
  have casts := cast_casts found target
  rw [done] at casts
  cases casts with
  | @made shape _ shaped => exact ⟨shape, shaped, rfl, tree_build heap shape⟩

theorem Shaped.kind (shaped : heap.Shaped source target shape) : shape.kind = target.kind := by
  cases shaped with
  | copied same => exact (kind_tree heap source).trans same
  | computed _ same => exact same

theorem Shaped.conforms (shaped : heap.Shaped source target shape)
    (conforms : (heap.tree source).Conforms (heap.type source)) : shape.Conforms shape.type := by
  cases shaped with
  | copied _ => exact (type_tree heap source).symm ▸ conforms
  | @computed value _ _ => exact ⟨StaticType.agrees_self _, value.carried_kind.symm⟩

theorem Shaped.agrees_iff (shaped : heap.Shaped source target shape)
    (saturated : target.Saturated) : shape.type.agrees target = true ↔
      (heap.kind source = target.kind → (heap.type source).agrees target = true) := by
  cases shaped with
  | copied same => simp [same, type_tree]
  | @computed value different same =>
      -- A computed value has no parts, so its kind takes no parameters.
      rw [StaticType.Saturated, ← same, value.arity_kind, List.length_eq_zero_iff] at saturated
      exact iff_of_true (StaticType.agrees_ofKind.mpr ⟨same, saturated⟩) fun same' =>
        absurd same' different

end

/-- A cast fails, and nothing happens, or gives a new object of the kind of its target.  The
object conforms to the target at every depth, unless it is a copy of an object that has this
kind and a type that does not agree with the target. -/
structure CastsSoundly (heap : Heap) (source : Address) (payload : Payload)
    (target : StaticType) : Prop where
  performed : Evaluation.applyCast source target =
    Evaluation.holding [source]
      (Evaluation.onHeap (·.cast source target) >>= Evaluation.ofExcept)
  succeeds : payload.CastsTo target.kind ↔
    ∃ result after, heap.cast source target = (.ok result, after)
  fails : ∀ {cause after}, heap.cast source target = (.error cause, after) →
    after = heap ∧ (cause = .integerOverflow "conversion" ∨
      ∃ subject, cause = .invalidCast subject target.text)
  fresh : ∀ {result after address}, heap.cast source target = (.ok result, after) →
    after.Reaches {result} address → heap.cells.size ≤ address
  unchanged : ∀ {result after address}, heap.cast source target = (.ok result, after) →
    address < heap.cells.size → after.get? address = heap.get? address
  kind : ∀ {result after}, heap.cast source target = (.ok result, after) →
    after.kind result = target.kind
  typed : ∀ {result after}, heap.cast source target = (.ok result, after) →
    ((after.type result).agrees target = true ↔
      (heap.kind source = target.kind → (heap.type source).agrees target = true))
  conforms : ∀ {result after}, heap.cast source target = (.ok result, after) →
    ((after.tree result).Conforms target ↔
      (heap.kind source = target.kind → (heap.type source).agrees target = true))

theorem casts_conform (found : heap.payload? source = some payload)
    (conforming : (heap.tree source).Conforms (heap.type source)) (saturated : target.Saturated) :
    heap.CastsSoundly source payload target where
  performed := Evaluation.applyCast_eq source target
  succeeds := by
    have casts := cast_casts found target
    generalize heap.cast source target = outcome at casts
    cases casts with
    | made casts _ => exact iff_of_true casts ⟨_, _, rfl⟩
    | failed excluded _ => exact iff_of_false excluded nofun
  fails := by
    intro cause after done
    have casts := cast_casts found target
    rw [done] at casts
    cases casts with
    | failed _ known => exact ⟨rfl, known⟩
  fresh := by
    intro result after address done reaches
    obtain ⟨shape, _, built, _⟩ := Shaped.of_cast found done
    have young := (Crafted.build heap shape).young
    rw [built] at young
    exact young.reaches (Multiset.mem_singleton_self result) reaches
  unchanged := by
    intro result after address done old
    obtain ⟨shape, _, built, _⟩ := Shaped.of_cast found done
    have kept := get?_build shape old
    rwa [built] at kept
  kind := by
    intro result after done
    obtain ⟨shape, shaped, _, tree⟩ := Shaped.of_cast found done
    rw [← kind_tree, tree, shaped.kind]
  typed := by
    intro result after done
    obtain ⟨shape, shaped, _, tree⟩ := Shaped.of_cast found done
    rw [← type_tree, tree, shaped.agrees_iff saturated]
  conforms := by
    intro result after done
    obtain ⟨shape, shaped, _, tree⟩ := Shaped.of_cast found done
    rw [tree, (shaped.conforms conforming).iff_agrees, shaped.agrees_iff saturated]

/-- A vector of an integer. -/
def digits : Heap :=
  ((({} : Heap).newScalar (.int 1)).2.newVector .int [0]).2

/-- The integers are cast to a vector of strings, and stay integers. -/
theorem casts_conform_digits : ∃ result after,
    digits.cast 1 (.vector .string) = (.ok result, after) ∧ after.kind result = .vector ∧
      (after.type result).agrees (.vector .string) = false ∧
        ¬ (after.tree result).Conforms (.vector .string) := by
  have laws := @casts_conform digits 1 (.vector [0]) (.vector .string) rfl
    ⟨rfl, rfl, ⟨rfl, rfl⟩, trivial⟩ rfl
  obtain ⟨result, after, done⟩ := laws.succeeds.mp (.same _)
  have differs : ¬ (digits.kind 1 = .vector →
      (digits.type 1).agrees (.vector .string) = true) := by decide
  exact ⟨result, after, done, laws.kind done,
    Bool.eq_false_iff.mpr (mt (laws.typed done).mp differs), mt (laws.conforms done).mp differs⟩

end Heap

end ScriptEngine
