/-!
# Interned names

An interner issues one name for each distinct string, counting from zero,
and always holds the empty string as name zero.  It keeps two tables, from
strings to indices and from indices to strings, and names run out when the
indices of 32 bits do.
-/

namespace ScriptEngine

structure Name where
  index : Nat
deriving DecidableEq, Repr, Inhabited

namespace Name

/-- The name of the empty string in every interner. -/
def empty : Name := ⟨0⟩

def outline (name : Name) : String :=
  "Name(" ++ toString name.index ++ ")"

end Name

/-- Why a string was given no name. -/
inductive InternFailure where
  | overflow (count : Nat)
deriving DecidableEq, Repr

structure Interner where
  /-- The index of every string that has a name, the last one first. -/
  indices : List (String × Nat)
  strings : Array String
deriving Repr

namespace Interner

/-- How many names there are to issue. -/
def capacity : Nat := UInt32.size

/-- The interner that has issued no name but the empty one. -/
def initial : Interner := ⟨[("", 0)], #[""]⟩

instance : Inhabited Interner := ⟨initial⟩

def size (interner : Interner) : Nat :=
  interner.strings.size

/-- The name of a string that has been interned. -/
def get? (interner : Interner) (string : String) : Option Name :=
  (interner.indices.lookup string).map Name.mk

/-- The next name, issued for a string. -/
def issue (interner : Interner) (string : String) : Name × Interner :=
  (⟨interner.size⟩, ⟨(string, interner.size) :: interner.indices, interner.strings.push string⟩)

/-- The name of a string, issuing the next one if the string is new and there
is a name left. -/
def tryIntern (interner : Interner) (string : String) : Except InternFailure Name × Interner :=
  match interner.get? string with
  | some name => (.ok name, interner)
  | none =>
      if interner.size < capacity then
        let (name, interner) := interner.issue string
        (.ok name, interner)
      else
        (.error (.overflow interner.size), interner)

/-- The name of a string, issuing the next one if the string is new.  Callers
stay within the capacity, where this is `tryIntern`. -/
def intern (interner : Interner) (string : String) : Name × Interner :=
  match interner.get? string with
  | some name => (name, interner)
  | none => interner.issue string

/-- The string of a name; a name that was never issued reads as empty. -/
def lookup (interner : Interner) (name : Name) : String :=
  interner.strings.getD name.index ""

/-- The names of several strings, interned from left to right. -/
def internAll (interner : Interner) : List String → List Name × Interner
  | [] => ([], interner)
  | string :: others =>
      let (name, interner) := interner.intern string
      let (names, interner) := interner.internAll others
      (name :: names, interner)

theorem intern_eq_of_get? {interner : Interner} {string : String} {name : Name}
    (known : interner.get? string = some name) :
    interner.intern string = (name, interner) := by
  simp [intern, known]

theorem size_intern_le (interner : Interner) (string : String) :
    interner.size ≤ (interner.intern string).2.size := by
  unfold intern
  split
  · exact Nat.le_refl _
  · simp [issue, size]

end Interner

/-- The text of the failure, which names the greatest index. -/
def InternFailure.message : InternFailure → String
  | .overflow count =>
      "interner exceeded capacity: " ++ toString count ++ " strings, max is "
        ++ toString (Interner.capacity - 1)

end ScriptEngine
