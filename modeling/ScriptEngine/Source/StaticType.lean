/-!
# Static types

A static type is a kind with parameters: one for the elements of a vector,
two for the keys and values of a dict. Agreement of types ignores `const` at
every level; equality does not.
-/

namespace ScriptEngine

inductive Kind where
  | none
  | int
  | usize
  | float
  | bool
  | char
  | string
  | range
  | vector
  | dict
  | args
deriving DecidableEq, Repr, Inhabited

namespace Kind

/-- All kinds, in the order in which their names are listed. -/
def all : List Kind :=
  [.none, .int, .usize, .float, .bool, .char, .string, .range, .vector, .dict, .args]

def name : Kind → String
  | .none => "none"
  | .int => "int"
  | .usize => "usize"
  | .float => "float"
  | .bool => "bool"
  | .char => "char"
  | .string => "string"
  | .range => "range"
  | .vector => "vector"
  | .dict => "dict"
  | .args => "args"

def ofName? (name : String) : Option Kind :=
  all.find? (·.name == name)

def isNumeric : Kind → Bool
  | .int | .usize | .float => true
  | _ => false

def isIterable : Kind → Bool
  | .range | .vector | .dict => true
  | _ => false

theorem mem_all (kind : Kind) : kind ∈ all := by
  cases kind <;> decide

theorem name_injective {left right : Kind} (same : left.name = right.name) :
    left = right := by
  cases left <;> cases right <;> first | rfl | exact absurd same (by decide)

theorem ofName?_name (kind : Kind) : ofName? kind.name = some kind := by
  cases kind <;> decide

end Kind

structure StaticType where
  kind : Kind
  parameters : List StaticType := []
  isConst : Bool := false
deriving Repr, Inhabited

namespace StaticType

mutual

def decEq (left right : StaticType) : Decidable (left = right) :=
  match left, right with
  | ⟨leftKind, leftParameters, leftConst⟩, ⟨rightKind, rightParameters, rightConst⟩ =>
      if labels : leftKind = rightKind ∧ leftConst = rightConst then
        match decEqList leftParameters rightParameters with
        | .isTrue same => .isTrue (by simp [labels, same])
        | .isFalse different => .isFalse (by simp [different])
      else
        .isFalse fun same => labels ⟨congrArg kind same, congrArg isConst same⟩

def decEqList (left right : List StaticType) : Decidable (left = right) :=
  match left, right with
  | [], [] => .isTrue rfl
  | [], _ :: _ => .isFalse nofun
  | _ :: _, [] => .isFalse nofun
  | leftFirst :: leftOthers, rightFirst :: rightOthers =>
      match decEq leftFirst rightFirst, decEqList leftOthers rightOthers with
      | .isTrue first, .isTrue others => .isTrue (by rw [first, others])
      | .isFalse different, _ => .isFalse (by simp [different])
      | _, .isFalse different => .isFalse (by simp [different])

end

instance : DecidableEq StaticType := decEq

def ofKind (kind : Kind) : StaticType := { kind := kind }

def none : StaticType := ofKind .none
def int : StaticType := ofKind .int
def usize : StaticType := ofKind .usize
def float : StaticType := ofKind .float
def bool : StaticType := ofKind .bool
def char : StaticType := ofKind .char
def string : StaticType := ofKind .string
def range : StaticType := ofKind .range
def args : StaticType := ofKind .args

def vector (element : StaticType) : StaticType :=
  { kind := .vector, parameters := [element] }

def dict (key value : StaticType) : StaticType :=
  { kind := .dict, parameters := [key, value] }

/-- The parameter at a position; a missing one is `none`. -/
def parameter (type : StaticType) (position : Nat) : StaticType :=
  type.parameters.getD position none

/-- The type with its outermost `const` removed. -/
def mutable (type : StaticType) : StaticType :=
  { type with isConst := false }

mutual

/-- Sameness of kinds and parameters, whatever is `const`. -/
def agrees : StaticType → StaticType → Bool
  | ⟨leftKind, leftParameters, _⟩, right =>
      leftKind == right.kind && agreeAll leftParameters right.parameters

def agreeAll : List StaticType → List StaticType → Bool
  | [], [] => true
  | left :: lefts, right :: rights => agrees left right && agreeAll lefts rights
  | _, _ => false

end

mutual

def text : StaticType → String
  | ⟨kind, parameters, isConst⟩ =>
      let base :=
        match parameters with
        | [] => kind.name
        | first :: others => kind.name ++ "<" ++ first.text ++ textOthers others ++ ">"
      if isConst then base ++ " const" else base

/-- Every type of the list with the separator before it. -/
def textOthers : List StaticType → String
  | [] => ""
  | type :: others => ", " ++ type.text ++ textOthers others

end

end StaticType

end ScriptEngine
