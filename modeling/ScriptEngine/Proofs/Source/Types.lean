import ScriptEngine.Source.StaticType

/-!
# Agreement of types

Types that agree are of one kind and have parameters that agree pairwise, whatever is
`const`.  This is an equivalence.
-/

namespace ScriptEngine

namespace StaticType

theorem agrees_iff {left right : StaticType} :
    left.agrees right = true ↔
      left.kind = right.kind ∧ agreeAll left.parameters right.parameters = true := by
  cases left
  simp [agrees]

mutual

theorem agrees_self : (type : StaticType) → type.agrees type = true
  | ⟨_, parameters, _⟩ => agrees_iff.mpr ⟨rfl, agreeAll_self parameters⟩

theorem agreeAll_self : (types : List StaticType) → agreeAll types types = true
  | [] => rfl
  | type :: types => by
      rw [agreeAll, agrees_self type, agreeAll_self types]
      rfl

end

mutual

theorem agrees_symm : (left right : StaticType) → left.agrees right = true →
    right.agrees left = true
  | ⟨_, parameters, _⟩, ⟨_, parameters', _⟩, agreed =>
      have both := agrees_iff.mp agreed
      agrees_iff.mpr ⟨both.1.symm, agreeAll_symm parameters parameters' both.2⟩

theorem agreeAll_symm : (lefts rights : List StaticType) → agreeAll lefts rights = true →
    agreeAll rights lefts = true
  | [], [], _ => rfl
  | [], _ :: _, agreed => nomatch agreed
  | _ :: _, [], agreed => nomatch agreed
  | left :: lefts, right :: rights, agreed => by
      rw [agreeAll, Bool.and_eq_true] at agreed ⊢
      exact ⟨agrees_symm left right agreed.1, agreeAll_symm lefts rights agreed.2⟩

end

mutual

theorem agrees_trans : (first second third : StaticType) → first.agrees second = true →
    second.agrees third = true → first.agrees third = true
  | ⟨_, parameters, _⟩, ⟨_, parameters', _⟩, ⟨_, parameters'', _⟩, agreed, agreed' =>
      have both := agrees_iff.mp agreed
      have both' := agrees_iff.mp agreed'
      agrees_iff.mpr ⟨both.1.trans both'.1,
        agreeAll_trans parameters parameters' parameters'' both.2 both'.2⟩

theorem agreeAll_trans : (first second third : List StaticType) → agreeAll first second = true →
    agreeAll second third = true → agreeAll first third = true
  | [], [], [], _, _ => rfl
  | [], [], _ :: _, _, agreed => nomatch agreed
  | [], _ :: _, _, agreed, _ => nomatch agreed
  | _ :: _, [], _, agreed, _ => nomatch agreed
  | _ :: _, _ :: _, [], _, agreed => nomatch agreed
  | type :: types, type' :: types', type'' :: types'', agreed, agreed' => by
      rw [agreeAll, Bool.and_eq_true] at agreed agreed' ⊢
      exact ⟨agrees_trans type type' type'' agreed.1 agreed'.1,
        agreeAll_trans types types' types'' agreed.2 agreed'.2⟩

end

theorem agrees_ofKind {kind : Kind} {target : StaticType} :
    (ofKind kind).agrees target = true ↔ kind = target.kind ∧ target.parameters = [] := by
  rw [agrees_iff]
  obtain ⟨aim, parameters, _⟩ := target
  cases parameters <;> simp [ofKind, agreeAll]

theorem agreeAll_getD {lefts rights : List StaticType} (agreed : agreeAll lefts rights = true)
    (position : Nat) : (lefts.getD position none).agrees (rights.getD position none) = true := by
  induction lefts generalizing rights position with
  | nil =>
      cases rights with
      | nil => exact agrees_self none
      | cons _ _ => cases agreed
  | cons left lefts induction =>
      cases rights with
      | nil => cases agreed
      | cons right rights =>
          rw [agreeAll, Bool.and_eq_true] at agreed
          cases position with
          | zero => exact agreed.1
          | succ position => exact induction agreed.2 position

theorem agrees_parameter {left right : StaticType} (agreed : left.agrees right = true)
    (position : Nat) : (left.parameter position).agrees (right.parameter position) = true :=
  agreeAll_getD (agrees_iff.mp agreed).2 position

end StaticType

end ScriptEngine
