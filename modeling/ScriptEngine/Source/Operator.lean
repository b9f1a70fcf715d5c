/-!
# Operators

Arithmetic and comparison operators are separate sets, because a program
holds them in separate chained nodes.
-/

namespace ScriptEngine

inductive ArithmeticOperator where
  | add
  | subtract
  | multiply
  | divide
  | remainder
deriving DecidableEq, Repr

inductive ComparisonOperator where
  | equal
  | notEqual
  | less
  | lessOrEqual
  | greater
  | greaterOrEqual
deriving DecidableEq, Repr

inductive UnaryOperator where
  | negate
  | keep
  | invert
deriving DecidableEq, Repr

namespace ArithmeticOperator

def all : List ArithmeticOperator := [.add, .subtract, .multiply, .divide, .remainder]

def symbol : ArithmeticOperator → String
  | .add => "+"
  | .subtract => "-"
  | .multiply => "*"
  | .divide => "/"
  | .remainder => "%"

/-- What an overflow in this operation is called. -/
def operation : ArithmeticOperator → String
  | .add => "addition"
  | .subtract => "subtraction"
  | .multiply => "multiplication"
  | .divide => "division"
  | .remainder => "remainder"

def ofSymbol? (symbol : String) : Option ArithmeticOperator :=
  all.find? (·.symbol == symbol)

end ArithmeticOperator

namespace ComparisonOperator

def all : List ComparisonOperator :=
  [.equal, .notEqual, .less, .lessOrEqual, .greater, .greaterOrEqual]

def symbol : ComparisonOperator → String
  | .equal => "=="
  | .notEqual => "!="
  | .less => "<"
  | .lessOrEqual => "<="
  | .greater => ">"
  | .greaterOrEqual => ">="

def ofSymbol? (symbol : String) : Option ComparisonOperator :=
  all.find? (·.symbol == symbol)

/-- Whether the operator asks for equality only, which every pair of values
can answer. -/
def isEquality : ComparisonOperator → Bool
  | .equal | .notEqual => true
  | _ => false

/-- Whether the operator accepts an ordering; unordered operands satisfy
`!=` alone. -/
def accepts : ComparisonOperator → Option Ordering → Bool
  | .equal, ordering => ordering == some .eq
  | .notEqual, ordering => ordering != some .eq
  | .less, ordering => ordering == some .lt
  | .lessOrEqual, ordering => ordering == some .lt || ordering == some .eq
  | .greater, ordering => ordering == some .gt
  | .greaterOrEqual, ordering => ordering == some .gt || ordering == some .eq

end ComparisonOperator

namespace UnaryOperator

def all : List UnaryOperator := [.negate, .keep, .invert]

def symbol : UnaryOperator → String
  | .negate => "-"
  | .keep => "+"
  | .invert => "!"

def ofSymbol? (symbol : String) : Option UnaryOperator :=
  all.find? (·.symbol == symbol)

end UnaryOperator

end ScriptEngine
