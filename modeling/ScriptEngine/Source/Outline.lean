import ScriptEngine.Source.Program
import ScriptEngine.Text.Quoted

/-!
# Outlines

The structure of a node written out, with the names of its parts, down to
the numbers of the nodes inside it.
-/

namespace ScriptEngine

namespace Outline

def list (items : List String) : String :=
  "[" ++ ", ".intercalate items ++ "]"

def pair (first second : String) : String :=
  "(" ++ first ++ ", " ++ second ++ ")"

/-- A name applied to one part. -/
def wrapped (name part : String) : String :=
  name ++ "(" ++ part ++ ")"

/-- A name with named parts. -/
def record (name : String) (fields : List (String × String)) : String :=
  name ++ " \x7b " ++
    ", ".intercalate (fields.map fun field => field.1 ++ ": " ++ field.2) ++ " \x7d"

def option (part : Option String) : String :=
  match part with
  | some part => wrapped "Some" part
  | none => "None"

def truth (value : Bool) : String :=
  if value then "true" else "false"

end Outline

open Outline

def ExpressionId.outline (id : ExpressionId) : String :=
  wrapped "ExprId" (toString id.index)

def StatementId.outline (id : StatementId) : String :=
  wrapped "StmtId" (toString id.index)

def FunctionId.outline (id : FunctionId) : String :=
  wrapped "FunctionId" (toString id.index)

def Kind.outline : Kind → String
  | .none => "None"
  | .int => "Int"
  | .usize => "USize"
  | .float => "Float"
  | .bool => "Bool"
  | .char => "Char"
  | .string => "String"
  | .range => "Range"
  | .vector => "Vector"
  | .dict => "Dict"
  | .args => "Args"

namespace StaticType

mutual

def outline : StaticType → String
  | ⟨kind, parameters, isConst⟩ =>
      record "TypeInfo"
        [("kind", kind.outline), ("params", list (outlineAll parameters)),
          ("is_const", truth isConst)]

def outlineAll : List StaticType → List String
  | [] => []
  | type :: others => type.outline :: outlineAll others

end

end StaticType

def ArithmeticOperator.outline : ArithmeticOperator → String
  | .add => "Add"
  | .subtract => "Sub"
  | .multiply => "Mul"
  | .divide => "Div"
  | .remainder => "Mod"

def ComparisonOperator.outline : ComparisonOperator → String
  | .equal => "Eq"
  | .notEqual => "NotEq"
  | .less => "Lt"
  | .lessOrEqual => "LtEq"
  | .greater => "Gt"
  | .greaterOrEqual => "GtEq"

def UnaryOperator.outline : UnaryOperator → String
  | .negate => "Neg"
  | .keep => "Plus"
  | .invert => "Not"

def Literal.outline : Literal → String
  | .none => "None"
  | .int value => wrapped "Int" (toString value.toInt)
  | .usize value => wrapped "USize" (toString value.toNat)
  | .float bits => wrapped "Float" (toString bits.toNat)
  | .bool value => wrapped "Bool" (truth value)
  | .char value => wrapped "Char" (Quoted.char value)
  | .string contents => wrapped "String" contents.outline

def Callee.outline : Callee → String
  | .builtin name => wrapped "Builtin" name.outline
  | .user function => wrapped "User" function.outline

def Expression.outline : Expression → String
  | .literal value => wrapped "Literal" value.outline
  | .reference name => wrapped "Variable" name.outline
  | .unary operator operand =>
      record "Unary" [("op", operator.outline), ("operand", operand.outline)]
  | .arithmetic first rest =>
      record "Arith" [("first", first.outline),
        ("rest", list (rest.map fun link => pair link.1.outline link.2.outline))]
  | .comparison first rest =>
      record "Compare" [("first", first.outline),
        ("rest", list (rest.map fun link => pair link.1.outline link.2.outline))]
  | .cast source => record "Cast" [("expr", source.outline)]
  | .vector elements => wrapped "Vector" (list (elements.map (·.outline)))
  | .dict entries =>
      wrapped "Dict"
        (list (entries.map fun entry => pair entry.1.outline entry.2.outline))
  | .range start stop => record "Range" [("begin", start.outline), ("end", stop.outline)]
  | .index base indices =>
      record "Index"
        [("base", base.outline), ("indices", list (indices.map (·.outline)))]
  | .call callee arguments =>
      record "Call"
        [("callee", callee.outline), ("args", list (arguments.map (·.outline)))]
  | .assign target value =>
      record "Assign" [("dest", target.outline), ("value", value.outline)]

def Block.outline (body : Block) : String :=
  record "Block"
    [("stmts", list (body.statements.map (·.outline))), ("span", body.span.text)]

def Statement.outline : Statement → String
  | .expression value => wrapped "Expr" value.outline
  | .declare name value =>
      record "Let" [("name", name.outline), ("init", option (value.map (·.outline)))]
  | .block body => wrapped "Block" body.outline
  | .branch condition body otherwise =>
      record "If" [("cond", condition.outline), ("then", body.outline),
        ("else_", option (otherwise.map (·.outline)))]
  | .forEach name iterable body =>
      record "For" [("var", name.outline), ("iterable", iterable.outline),
        ("body", body.outline)]
  | .whileLoop condition body =>
      record "While" [("cond", condition.outline), ("body", body.outline)]
  | .doWhile body condition =>
      record "DoWhile" [("body", body.outline), ("cond", condition.outline)]
  | .forever body => record "Loop" [("body", body.outline)]
  | .breakLoop => "Break"
  | .continueLoop => "Continue"
  | .giveBack value => wrapped "Return" (option (value.map (·.outline)))

/-- A node's outline followed by the place it stands for. -/
def Located.outline {α : Type} (located : Located α) (outline : α → String) : String :=
  outline located.node ++ " @ " ++ located.span.text

end ScriptEngine
