import ScriptEngine.Value.Scalar

/-!
# Values as trees

A tree is what can be seen of a value apart from identity: at each position
its static type and either a scalar or the values inside it, in order.
-/

namespace ScriptEngine

inductive Tree where
  | scalar (type : StaticType) (value : Scalar)
  | vector (type : StaticType) (elements : List Tree)
  | dict (type : StaticType) (entries : List (Tree × Tree))

namespace Tree

instance : Inhabited Tree := ⟨.scalar .none .none⟩

def type : Tree → StaticType
  | .scalar type _ => type
  | .vector type _ => type
  | .dict type _ => type

mutual

/-- The number of positions, which is the number of objects of a copy. -/
def size : Tree → Nat
  | .scalar _ _ => 1
  | .vector _ elements => 1 + sizeAll elements
  | .dict _ entries => 1 + sizeEntries entries

def sizeAll : List Tree → Nat
  | [] => 0
  | tree :: others => tree.size + sizeAll others

def sizeEntries : List (Tree × Tree) → Nat
  | [] => 0
  | (key, value) :: others => key.size + value.size + sizeEntries others

end

mutual

def render (nested : Bool) : Tree → String
  | .scalar _ value => value.render nested
  | .vector _ elements => "[" ++ ", ".intercalate (renderAll elements) ++ "]"
  | .dict _ entries =>
      match renderEntries entries with
      | [] => "\x7b\x7d"
      | texts => "\x7b " ++ ", ".intercalate texts ++ " \x7d"

def renderAll : List Tree → List String
  | [] => []
  | tree :: others => tree.render true :: renderAll others

def renderEntries : List (Tree × Tree) → List String
  | [] => []
  | (key, value) :: others =>
      (key.render true ++ ": " ++ value.render true) :: renderEntries others

end

end Tree

end ScriptEngine
