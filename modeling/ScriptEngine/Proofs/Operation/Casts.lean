import ScriptEngine.Proofs.Custody.Triple
import ScriptEngine.Proofs.Operation.Exactness
import ScriptEngine.Proofs.Ownership.Contents
import ScriptEngine.Proofs.Source.Types

/-!
# Casts between words and characters

Words of either width and characters stand for integers, and each kind for those of its
own range.  A cast from one of these kinds to another gives the value of the new kind that
stands for the same integer, or fails if there is none.  So there is always a way back, and
casts along a list of types can fail on the way but not lead anywhere else than the one
cast to the last of them.
-/

namespace ScriptEngine

/-! ## Numbers -/

namespace Kind

/-- The integers that values of a kind stand for. -/
def Includes : Kind → Int → Prop
  | .bool, number => number = 0 ∨ number = 1
  | .char, number => (0 ≤ number ∧ number < 0xD800) ∨ (0xDFFF < number ∧ number < 0x110000)
  | kind, number => kind.Spans number

instance (kind : Kind) (number : Int) : Decidable (kind.Includes number) := by
  cases kind <;> unfold Includes <;> infer_instance

/-- Values of one kind that stand for integers are cast to values of the other. -/
def Recasts : Kind → Kind → Prop
  | .int, .usize | .usize, .int | .int, .char | .char, .int | .bool, .int => True
  | _, _ => False

instance (source target : Kind) : Decidable (source.Recasts target) := by
  unfold Recasts
  split <;> infer_instance

theorem Recasts.exact {source target : Kind} (recasts : source.Recasts target) :
    target ≠ .float := by
  rintro rfl
  cases source <;> exact recasts

end Kind

theorem codePoint?_of_includes {number : Int} (inside : Kind.char.Includes number) :
    ∃ character, codePoint? number = some character ∧ (character.toNat : Int) = number := by
  unfold Kind.Includes at inside
  have positive : 0 ≤ number := by omega
  have valid : number.toNat.isValidChar := by
    unfold Nat.isValidChar
    omega
  refine ⟨Char.ofNatAux number.toNat valid, ?_, Int.toNat_of_nonneg positive⟩
  rw [codePoint?, if_pos positive, dif_pos valid]

theorem codePoint?_of_not_includes {number : Int} (beyond : ¬ Kind.char.Includes number) :
    codePoint? number = none := by
  unfold Kind.Includes at beyond
  by_cases positive : 0 ≤ number
  · have invalid : ¬ number.toNat.isValidChar := by
      unfold Nat.isValidChar
      omega
    rw [codePoint?, if_pos positive, dif_neg invalid]
  · rw [codePoint?, if_neg positive]

theorem codePoint?_ne_none {number : Int} :
    codePoint? number ≠ none ↔ Kind.char.Includes number := by
  by_cases inside : Kind.char.Includes number
  · obtain ⟨character, coded, _⟩ := codePoint?_of_includes inside
    simp [coded, inside]
  · simp [codePoint?_of_not_includes inside, inside]

theorem codePoint?_toNat {number : Int} {character : Char}
    (coded : codePoint? number = some character) : (character.toNat : Int) = number := by
  have inside := codePoint?_ne_none.mp (coded ▸ Option.some_ne_none character)
  obtain ⟨character', coded', exact⟩ := codePoint?_of_includes inside
  rw [Option.some.inj (coded.symm.trans coded')]
  exact exact

theorem Char.includes_toNat (character : Char) : Kind.char.Includes character.toNat := by
  have valid := character.valid
  unfold UInt32.isValidChar Nat.isValidChar at valid
  change character.toNat < _ ∨ _ < character.toNat ∧ character.toNat < _ at valid
  unfold Kind.Includes
  omega

namespace Scalar

variable {kind : Kind} {value other : Scalar} {number : Int}

/-- The integer that a value stands for: a word for the one it denotes, a character for
its code point. -/
def number? : Scalar → Option Int
  | .bool truth => some (if truth then 1 else 0)
  | .char character => some character.toNat
  | value => value.integer?

/-- A value of a kind that stands for an integer. -/
def StandsFor (value : Scalar) (kind : Kind) (number : Int) : Prop :=
  value.kind = kind ∧ value.number? = some number

namespace StandsFor

theorem includes (stands : value.StandsFor kind number) : kind.Includes number := by
  obtain ⟨rfl, stands⟩ := stands
  cases value with
  | int word => exact @Denotes.spans _ (.int word) _ ⟨rfl, stands⟩
  | usize word => exact @Denotes.spans _ (.usize word) _ ⟨rfl, stands⟩
  | bool truth =>
      cases stands
      cases truth
      · exact Or.inl rfl
      · exact Or.inr rfl
  | char character =>
      cases stands
      exact Char.includes_toNat character
  | _ => cases stands

/-- A kind has one value for an integer. -/
theorem unique (stands : value.StandsFor kind number) (stands' : other.StandsFor kind number) :
    value = other := by
  obtain ⟨rfl, stands⟩ := stands
  obtain ⟨same, stands'⟩ := stands'
  rw [← stands] at stands'
  cases value with
  | int word =>
      cases other with
      | int word' => rw [Int64.toInt_inj.mp (Option.some.inj stands')]
      | _ => cases same
  | usize word =>
      cases other with
      | usize word' => rw [UInt64.toNat_inj.mp (Int.ofNat.inj (Option.some.inj stands'))]
      | _ => cases same
  | bool truth =>
      cases other with
      | bool truth' => cases truth <;> cases truth' <;> first | rfl | cases stands'
      | _ => cases same
  | char character =>
      cases other with
      | char character' =>
          rw [Char.toNat_inj.mp (Int.ofNat.inj (Option.some.inj stands'))]
      | _ => cases same
  | _ => cases stands

theorem proper (stands : value.StandsFor kind number) : value.isNan = false := by
  obtain ⟨rfl, stands⟩ := stands
  cases value with
  | float number => cases stands
  | _ => rfl

end StandsFor

end Scalar

/-! ## Conversions -/

/-- Why there is no value of a type that stands for an integer. -/
def StaticType.excludes (target : StaticType) (number : Int) : Cause :=
  match target.kind with
  | .char => .invalidCast (toString number) target.text
  | _ => .integerOverflow "conversion"

/-- A conversion gives the value of a type that stands for an integer, or fails if there is
none. -/
structure Gives (result : Except Cause Conversion) (target : StaticType) (number : Int) :
    Prop where
  computes : target.kind.Includes number →
    ∃ value, result = .ok (.computed value) ∧ value.StandsFor target.kind number
  fails : ¬ target.kind.Includes number → result = .error (target.excludes number)

section

variable {result : Except Cause Conversion} {target : StaticType} {value : Scalar} {kind : Kind}
  {number : Int}

theorem Gives.of_computed (computed : result = .ok (.computed value))
    (stands : value.StandsFor target.kind number) : Gives result target number where
  computes _ := ⟨value, computed, stands⟩
  fails beyond := absurd stands.includes beyond

theorem Gives.of_narrowed {α : Type} {narrowed? : Option α}
    (narrows : narrowed? ≠ none ↔ target.kind.Includes number)
    (narrower : ∀ {word}, narrowed? = some word →
      ∃ value, result = .ok (.computed value) ∧ value.StandsFor target.kind number)
    (nothing : narrowed? = none → result = .error (target.excludes number)) :
    Gives result target number where
  computes inside :=
    have ⟨_, narrowed⟩ := Option.ne_none_iff_exists'.mp (narrows.mpr inside)
    narrower narrowed
  fails beyond := nothing (Decidable.not_not.mp (mt narrows.mp beyond))

theorem Scalar.StandsFor.gives (stands : value.StandsFor kind number)
    (recasts : kind.Recasts target.kind) :
    Gives (conversion (.scalar value) target) target number := by
  obtain ⟨rfl, stands⟩ := stands
  obtain ⟨aim, parameters, isConst⟩ := target
  cases value with
  | int word =>
      cases stands
      cases aim with
      | usize =>
          refine .of_narrowed uint64?_ne_none (fun narrowed => ?_) (fun narrowed => ?_)
          · exact ⟨.usize _, by simp [conversion, narrowed], rfl,
              congrArg some (uint64?_toNat narrowed)⟩
          · simp [conversion, narrowed, StaticType.excludes]
      | char =>
          refine .of_narrowed codePoint?_ne_none (fun coded => ?_) (fun coded => ?_)
          · exact ⟨.char _, by simp [conversion, coded], rfl,
              congrArg some (codePoint?_toNat coded)⟩
          · simp [conversion, coded, StaticType.excludes]
      | _ => exact recasts.elim
  | usize word =>
      cases stands
      cases aim with
      | int =>
          refine .of_narrowed int64?_ne_none (fun narrowed => ?_) (fun narrowed => ?_)
          · exact ⟨.int _, by simp [conversion, narrowed], rfl,
              congrArg some (int64?_toInt narrowed)⟩
          · simp [conversion, narrowed, StaticType.excludes]
      | _ => exact recasts.elim
  | bool truth =>
      cases stands
      cases aim with
      | int =>
          refine .of_computed rfl ⟨rfl, ?_⟩
          cases truth <;> rfl
      | _ => exact recasts.elim
  | char character =>
      cases stands
      cases aim with
      | int =>
          refine .of_computed rfl ⟨rfl, ?_⟩
          have bound := Char.includes_toNat character
          unfold Kind.Includes at bound
          exact congrArg some (Int64.toInt_ofNat_of_lt (by omega))
      | _ => exact recasts.elim
  | _ => cases stands

/-- What is not converted is only copied, if it has the kind already. -/
theorem Scalar.StandsFor.sameKind (stands : value.StandsFor kind number)
    (exact : target.kind ≠ .float) (different : ¬ kind.Recasts target.kind) :
    conversion (.scalar value) target = ScriptEngine.sameKind (.scalar value) target := by
  obtain ⟨rfl, stands⟩ := stands
  obtain ⟨aim, parameters, isConst⟩ := target
  cases value with
  | int _ | usize _ | bool _ | char _ =>
      cases aim with
      | float => exact absurd rfl exact
      | int | usize | char => first | rfl | exact absurd trivial different
      | _ => rfl
  | _ => cases stands

end

/-! ## Casts of objects -/

/-- A cast as far as it concerns objects. -/
def Heap.cast (heap : Heap) (source : Address) (target : StaticType) :
    Except Cause Address × Heap :=
  match heap.payload? source with
  | none => (.error (.invalidCast "none" target.text), heap)
  | some payload =>
      match conversion payload target with
      | .error cause => (.error cause, heap)
      | .ok (.computed value) =>
          let (result, heap) := heap.newScalar value
          (.ok result, heap)
      | .ok .duplicate =>
          let (result, heap) := heap.copy source
          (.ok result, heap)

/-- What programs cast they give back. -/
theorem Evaluation.applyCast_eq (source : Address) (target : StaticType) :
    applyCast source target =
      holding [source] (onHeap (·.cast source target) >>= ofExcept) := by
  refine congrArg (holding [source]) (funext fun state => ?_)
  simp only [bind_run, read, onHeap, State.onHeap, Heap.cast]
  cases found : state.heap.payload? source with
  | none => rfl
  | some payload =>
      cases converted : conversion payload target with
      | error cause => simp only [converted, ofExcept]; rfl
      | ok conversion =>
          cases conversion with
          | computed value => simp only [converted]; rfl
          | duplicate => simp only [converted]; rfl

namespace Heap

variable {heap after : Heap} {source result : Address} {target : StaticType} {kind : Kind}
  {number : Int}

/-- An object is a value of a kind that stands for an integer. -/
def StandsFor (heap : Heap) (address : Address) (kind : Kind) (number : Int) : Prop :=
  ∃ value ∈ heap.scalar? address, value.StandsFor kind number

instance (heap : Heap) (address : Address) (kind : Kind) (number : Int) :
    Decidable (heap.StandsFor address kind number) := by
  unfold StandsFor Scalar.StandsFor
  infer_instance

theorem StandsFor.scalar?_eq {other : Heap} {address address' : Address}
    (stands : heap.StandsFor address kind number)
    (stands' : other.StandsFor address' kind number) :
    other.scalar? address' = heap.scalar? address := by
  obtain ⟨value, found, exact⟩ := stands
  obtain ⟨value', found', exact'⟩ := stands'
  rw [Option.mem_def] at found found'
  rw [found, found', exact.unique exact']

theorem StandsFor.equals {other : Address} (stands : heap.StandsFor source kind number)
    (stands' : heap.StandsFor other kind number) : heap.equals source other = true := by
  obtain ⟨value, found, exact⟩ := stands
  obtain ⟨value', found', exact'⟩ := stands'
  obtain rfl := exact.unique exact'
  rw [Option.mem_def, scalar?_eq_some_iff] at found found'
  obtain ⟨depth, deep⟩ := Nat.exists_eq_succ_of_ne_zero
    (Nat.mul_ne_zero heap.cells.size.succ_ne_zero heap.cells.size.succ_ne_zero)
  rw [Heap.equals, deep, equalWithin_succ, found, found', Bool.or_eq_true]
  exact Or.inr (Scalar.equals_self exact.proper)

theorem StandsFor.cast_of_recasts (stands : heap.StandsFor source kind number)
    (recasts : kind.Recasts target.kind) :
    (target.kind.Includes number → ∃ value, value.StandsFor target.kind number ∧
      heap.cast source target = (.ok heap.cells.size, (heap.newScalar value).2)) ∧
    (¬ target.kind.Includes number →
      heap.cast source target = (.error (target.excludes number), heap)) := by
  obtain ⟨value, found, exact⟩ := stands
  rw [Option.mem_def, scalar?_eq_some_iff] at found
  have gives := exact.gives recasts
  constructor
  · intro inside
    obtain ⟨value', computed, exact'⟩ := gives.computes inside
    refine ⟨value', exact', ?_⟩
    simp only [cast, found, computed]
    rfl
  · intro beyond
    simp only [cast, found, gives.fails beyond]

theorem copy_of_scalar {value : Scalar} (found : heap.scalar? source = some value) :
    heap.copy source = heap.allocate (heap.type source) (.scalar value) := by
  rw [scalar?_eq_some_iff] at found
  obtain ⟨object, present, scalar⟩ := Option.map_eq_some_iff.mp found
  simp only [copy, tree, treeWithin, present, scalar, type, build]

/-- Whatever is not converted is copied if it has the kind already. -/
theorem StandsFor.cast_of_not_recasts (stands : heap.StandsFor source kind number)
    (exact : target.kind ≠ .float) (different : ¬ kind.Recasts target.kind) :
    (kind = target.kind → ∃ value, value.StandsFor kind number ∧
      heap.cast source target =
        (.ok heap.cells.size, (heap.allocate (heap.type source) (.scalar value)).2)) ∧
    (kind ≠ target.kind →
      heap.cast source target = (.error (.invalidCast kind.name target.text), heap)) := by
  obtain ⟨value, present, stands⟩ := stands
  have converted := stands.sameKind exact different
  have found := scalar?_eq_some_iff.mp present
  obtain ⟨rfl, denotes⟩ := stands
  have kindred : (Payload.scalar value).kind = value.kind := rfl
  constructor
  · intro same
    refine ⟨value, ⟨rfl, denotes⟩, ?_⟩
    simp only [cast, found, converted, sameKind, kindred, if_pos same, copy_of_scalar present]
    rfl
  · intro other
    simp only [cast, found, converted, sameKind, kindred, if_neg other]

/-- What a cast of such an object can give: a new object, which stands for the same
integer. -/
theorem StandsFor.cast (stands : heap.StandsFor source kind number)
    (exact : target.kind ≠ .float) (done : heap.cast source target = (.ok result, after)) :
    ∃ type value, value.StandsFor target.kind number ∧
      (type = .ofKind target.kind ∨ kind = target.kind ∧ type = heap.type source) ∧
      result = heap.cells.size ∧ after = (heap.allocate type (.scalar value)).2 := by
  by_cases recasts : kind.Recasts target.kind
  · obtain ⟨computes, fails⟩ := stands.cast_of_recasts recasts
    by_cases inside : target.kind.Includes number
    · obtain ⟨value, exact, computed⟩ := computes inside
      cases done.symm.trans computed
      refine ⟨value.type, value, exact, Or.inl ?_, rfl, rfl⟩
      rw [Scalar.type, exact.1]
    · cases done.symm.trans (fails inside)
  · obtain ⟨copies, fails⟩ := stands.cast_of_not_recasts exact recasts
    by_cases same : kind = target.kind
    · obtain ⟨value, exact, copied⟩ := copies same
      cases done.symm.trans copied
      exact ⟨heap.type source, value, same ▸ exact, Or.inr ⟨same, rfl⟩, rfl, rfl⟩
    · cases done.symm.trans (fails same)

theorem standsFor_allocate (heap : Heap) {value : Scalar} (stands : value.StandsFor kind number)
    (type : StaticType) :
    (heap.allocate type (.scalar value)).2.StandsFor heap.cells.size kind number := by
  refine ⟨value, ?_, stands⟩
  rw [Option.mem_def, scalar?_eq_some_iff, payload?_allocate, if_pos rfl]

theorem StandsFor.allocate (stands : heap.StandsFor source kind number) (type : StaticType)
    (payload : Payload) : (heap.allocate type payload).2.StandsFor source kind number := by
  obtain ⟨value, found, exact⟩ := stands
  have old := lt_size_of_scalar? found
  refine ⟨value, ?_, exact⟩
  rw [Option.mem_def, scalar?_eq_some_iff] at found ⊢
  rw [payload?_allocate, if_neg (Nat.ne_of_lt old), found]

theorem type_allocate (type : StaticType) (payload : Payload) :
    (heap.allocate type payload).2.type heap.cells.size = type := by
  rw [Heap.type, get?_allocate, if_pos rfl]

/-! ## Casts one after the other -/

/-- Casts along a list of types, each of what the one before has given. -/
def castAlong (heap : Heap) (source : Address) : List StaticType → Except Cause Address × Heap
  | [] => (.ok source, heap)
  | target :: targets =>
      match heap.cast source target with
      | (.ok result, heap) => heap.castAlong result targets
      | (.error cause, heap) => (.error cause, heap)

/-- The static type of an object is that of its payload, apart from `const`. -/
def Typed (heap : Heap) (address : Address) : Prop :=
  (heap.type address).agrees (.ofKind (heap.kind address)) = true

theorem StandsFor.includes (stands : heap.StandsFor source kind number) :
    kind.Includes number :=
  have ⟨_, _, exact⟩ := stands
  exact.includes

theorem StandsFor.kind_eq (stands : heap.StandsFor source kind number) :
    heap.kind source = kind := by
  obtain ⟨value, found, rfl, _⟩ := stands
  exact kind_of_scalar? found

/-- A cast keeps the integer. -/
theorem StandsFor.step (stands : heap.StandsFor source kind number)
    (exact : target.kind ≠ .float) (done : heap.cast source target = (.ok result, after)) :
    after.StandsFor result target.kind number ∧ (heap.Typed source → after.Typed result) := by
  obtain ⟨type, value, exact', origin, rfl, rfl⟩ := stands.cast exact done
  have made := standsFor_allocate heap exact' type
  refine ⟨made, fun typed => ?_⟩
  rw [Typed, type_allocate, made.kind_eq]
  rcases origin with rfl | ⟨rfl, rfl⟩
  · exact StaticType.agrees_self _
  · rw [Typed, stands.kind_eq] at typed
    exact typed

theorem StandsFor.casts (stands : heap.StandsFor source kind number)
    (exact : target.kind ≠ .float) (inside : target.kind.Includes number)
    (direct : kind = target.kind ∨ kind.Recasts target.kind) :
    ∃ result after, heap.cast source target = (.ok result, after) := by
  by_cases recasts : kind.Recasts target.kind
  · obtain ⟨_, _, computed⟩ := (stands.cast_of_recasts recasts).1 inside
    exact ⟨_, _, computed⟩
  · obtain ⟨_, _, copied⟩ :=
      (stands.cast_of_not_recasts exact recasts).1 (direct.resolve_right recasts)
    exact ⟨_, _, copied⟩

/-- So do casts along a list of types. -/
theorem StandsFor.castAlong {last : StaticType} (targets : List StaticType)
    (stands : heap.StandsFor source kind number)
    (exact : ∀ target ∈ targets ++ [last], target.kind ≠ .float)
    (done : heap.castAlong source (targets ++ [last]) = (.ok result, after)) :
    after.StandsFor result last.kind number ∧ (heap.Typed source → after.Typed result) := by
  induction targets generalizing heap source kind with
  | nil =>
      rw [List.nil_append, Heap.castAlong] at done
      split at done
      · rename_i made middle cast
        cases done
        exact stands.step (exact last List.mem_cons_self) cast
      · cases done
  | cons target targets induction =>
      rw [List.cons_append, Heap.castAlong] at done
      split at done
      · rename_i made middle cast
        obtain ⟨stands', typed⟩ := stands.step (exact target List.mem_cons_self) cast
        have rest := induction stands'
          (fun other member => exact other (List.mem_cons_of_mem _ member)) done
        exact ⟨rest.1, rest.2 ∘ typed⟩
      · cases done

/-- A cast between kinds of values that stand for integers has a result exactly if the
kind has a value for the integer, and the result is a new object that stands for it. -/
structure CastsExactly (heap : Heap) : Prop where
  performed : ∀ source target, Evaluation.applyCast source target =
    Evaluation.holding [source]
      (Evaluation.onHeap (·.cast source target) >>= Evaluation.ofExcept)
  succeeds : ∀ {source target kind number}, heap.StandsFor source kind number →
    kind.Recasts target.kind →
      (target.kind.Includes number ↔
        ∃ result after, heap.cast source target = (.ok result, after))
  exact : ∀ {source target kind number result after}, heap.StandsFor source kind number →
    kind.Recasts target.kind → heap.cast source target = (.ok result, after) →
      after.StandsFor result target.kind number ∧ after.type result = .ofKind target.kind ∧
        heap.get? result = none ∧
          ∀ address < heap.cells.size, after.get? address = heap.get? address
  truths : ∀ {source target truth}, heap.scalar? source = some (.bool truth) →
    target.kind = .int → ∃ after, heap.cast source target = (.ok heap.cells.size, after) ∧
      after.scalar? heap.cells.size = some (.int (if truth then 1 else 0))
  fails : ∀ {source target kind number cause after}, heap.StandsFor source kind number →
    kind.Recasts target.kind → heap.cast source target = (.error cause, after) →
      cause = target.excludes number ∧ after = heap
  returns : ∀ {source target back kind number result after},
    heap.StandsFor source kind number → kind.Recasts target.kind →
      heap.cast source target = (.ok result, after) → back.kind = kind →
        target.kind.Recasts kind → ∃ returned last,
          after.cast result back = (.ok returned, last) ∧
            last.scalar? returned = heap.scalar? source ∧ last.equals source returned = true
  composes : ∀ {source targets last kind number result after},
    heap.StandsFor source kind number →
      (∀ target ∈ targets ++ [last], target.kind ≠ .float) →
        heap.castAlong source (targets ++ [last]) = (.ok result, after) →
        kind = last.kind ∨ kind.Recasts last.kind → ∃ direct once,
          heap.cast source last = (.ok direct, once) ∧
            after.scalar? result = once.scalar? direct ∧
              (heap.Typed source → (after.type result).agrees (once.type direct) = true)

theorem casts_exact (heap : Heap) : heap.CastsExactly where
  performed := Evaluation.applyCast_eq
  succeeds := by
    intro source target kind number stands recasts
    obtain ⟨computes, fails⟩ := stands.cast_of_recasts recasts
    constructor
    · intro inside
      obtain ⟨value, _, computed⟩ := computes inside
      exact ⟨_, _, computed⟩
    · intro ⟨result, after, done⟩
      by_contra beyond
      cases done.symm.trans (fails beyond)
  exact := by
    intro source target kind number result after stands recasts done
    obtain ⟨computes, fails⟩ := stands.cast_of_recasts recasts
    by_cases inside : target.kind.Includes number
    · obtain ⟨value, exact, computed⟩ := computes inside
      cases done.symm.trans computed
      refine ⟨standsFor_allocate heap exact _, ?_, get?_eq_none_of_size_le le_rfl, ?_⟩
      · rw [newScalar, type_allocate, Scalar.type, exact.1]
      · intro address old
        exact get?_allocate_of_lt old _ _
    · cases done.symm.trans (fails inside)
  truths := by
    intro source target truth found same
    refine ⟨(heap.newScalar (.int (if truth then 1 else 0))).2, ?_, scalar?_newScalar _ _⟩
    simp only [cast, scalar?_eq_some_iff.mp found, conversion, same]
    rfl
  fails := by
    intro source target kind number cause after stands recasts done
    obtain ⟨computes, fails⟩ := stands.cast_of_recasts recasts
    by_cases inside : target.kind.Includes number
    · obtain ⟨value, exact, computed⟩ := computes inside
      cases done.symm.trans computed
    · cases done.symm.trans (fails inside)
      exact ⟨rfl, rfl⟩
  returns := by
    intro source target back kind number result after stands recasts done same recasts'
    obtain ⟨type, value, exact, _, rfl, rfl⟩ := stands.cast recasts.exact done
    have kept := stands.allocate type (.scalar value)
    subst same
    obtain ⟨value', exact', computed⟩ :=
      ((standsFor_allocate heap exact type).cast_of_recasts recasts').1 stands.includes
    have returned := standsFor_allocate (heap.allocate type (.scalar value)).2 exact' value'.type
    exact ⟨_, _, computed, stands.scalar?_eq returned,
      (kept.allocate value'.type (.scalar value')).equals returned⟩
  composes := by
    intro source targets last kind number result after stands exact done direct
    obtain ⟨stands', typed⟩ := stands.castAlong targets exact done
    have ⟨direct, once, computed⟩ := stands.casts (exact last (by simp)) stands'.includes direct
    obtain ⟨stands'', typed'⟩ := stands.step (exact last (by simp)) computed
    refine ⟨direct, once, computed, stands''.scalar?_eq stands', fun conforms => ?_⟩
    have alike := typed conforms
    have alike' := typed' conforms
    rw [Typed, stands'.kind_eq] at alike
    rw [Typed, stands''.kind_eq] at alike'
    exact StaticType.agrees_trans _ _ _ alike (StaticType.agrees_symm _ _ alike')

/-- A code point, the first surrogate and the greatest word. -/
def codes : Heap :=
  let heap := (({} : Heap).newScalar (.int 65)).2
  let heap := (heap.newScalar (.int 0xD800)).2
  (heap.newScalar (.usize 0xFFFFFFFFFFFFFFFF)).2

/-- A letter is got by way of both widths; what is no character, or too great a number,
is not cast at all. -/
theorem casts_exact_codes :
    (∃ result after, codes.castAlong 0 [.usize, .int, .char] = (.ok result, after) ∧
      after.scalar? result = some (.char 'A')) ∧
    (¬ ∃ result after, codes.cast 1 .char = (.ok result, after)) ∧
    ¬ ∃ result after, codes.cast 2 .int = (.ok result, after) := by
  have laws := casts_exact codes
  have letter : codes.StandsFor 0 .int 65 := by decide
  have surrogate : codes.StandsFor 1 .int 0xD800 := by decide
  have greatest : codes.StandsFor 2 .usize 0xFFFFFFFFFFFFFFFF := by decide
  have coded : Kind.int.Recasts StaticType.char.kind := by decide
  have narrowed : Kind.usize.Recasts StaticType.int.kind := by decide
  refine ⟨?_, mt (laws.succeeds surrogate coded).mpr (by decide),
    mt (laws.succeeds greatest narrowed).mpr (by decide)⟩
  obtain ⟨result, after, done⟩ : ∃ result after,
      codes.castAlong 0 ([.usize, .int] ++ [.char]) = (.ok result, after) := ⟨_, _, rfl⟩
  obtain ⟨direct, once, cast, same, _⟩ :=
    laws.composes letter (by decide) done (Or.inr coded)
  refine ⟨result, after, done, ?_⟩
  rw [same]
  cases (show codes.cast 0 .char = (.ok 3, _) from rfl).symm.trans cast
  rfl

end Heap

end ScriptEngine
