import MeteredScript.Number.Binary64
import MeteredScript.Name
import MeteredScript.ValueType

/-!
Nodes of programs. A node names its operands by their numbers in an arena; lists of operands are
ranges of one common table, and branches and bodies are the heads of statement chains.
-/

namespace MeteredScript

abbrev NodeId := Nat

/-- A constant of a program; texts are interned. -/
inductive Literal where
  | null
  | bool (b : Bool)
  | int (i : Int64)
  | float (x : Binary64)
  | str (n : Name)
deriving DecidableEq, Repr

def Literal.type : Literal → ValueType
  | null => .null | bool _ => .bool | int _ => .int | float _ => .float | str _ => .str

inductive BinaryOp where
  | add | sub | mul | div | rem | eq | notEq | lt | ltEq | gt | gtEq | and | or
deriving DecidableEq, Repr

namespace BinaryOp

def symbol : BinaryOp → String
  | add => "+" | sub => "-" | mul => "*" | div => "/" | rem => "%"
  | eq => "==" | notEq => "!=" | lt => "<" | ltEq => "<=" | gt => ">" | gtEq => ">="
  | and => "&&" | or => "||"

def all : List BinaryOp := [add, sub, mul, div, rem, eq, notEq, lt, ltEq, gt, gtEq, and, or]

def ofSymbol? (text : String) : Option BinaryOp := all.find? (·.symbol = text)

/-- Operators whose result is a truth value. -/
def isBoolean : BinaryOp → Bool
  | add | sub | mul | div | rem => false
  | _ => true

theorem ofSymbol?_symbol (op : BinaryOp) : ofSymbol? op.symbol = some op := by cases op <;> decide

end BinaryOp

/-- A range of the operand table. -/
structure NodeRange where
  start : Nat
  length : Nat
deriving DecidableEq, Inhabited, Repr

inductive NodeKind where
  | literal (value : Literal) (declared : Option ValueType)
  | this
  | var (name : Name)
  | declare (name : Name) (type : Option ValueType) (init : NodeId)
  | declareAt (slot : Nat) (name : Name) (type : Option ValueType) (init : NodeId)
  | assign (name : Name) (value : NodeId)
  | binary (op : BinaryOp) (left right : NodeId)
  | not (operand : NodeId)
  | cond (test : NodeId) (onTrue onFalse : Option NodeId)
  | block (body : Option NodeId)
  | doWhile (body : Option NodeId) (test : NodeId)
  | whileDo (test : NodeId) (body : Option NodeId)
  | forEach (item : Name) (iterable : NodeId) (body : Option NodeId)
  | ret (value : NodeId)
  | brk
  | listLit (range : NodeRange)
  | mapLit (range : NodeRange)
  | setLit (range : NodeRange)
  | typeRef (name : Name)
  | call (receiver : NodeId) (method : Name) (args : NodeRange)
deriving DecidableEq, Repr

namespace NodeKind

/-- The operands and the heads of nested chains, in the order in which they are checked. -/
def operands : NodeKind → List NodeId
  | literal .. | this | var _ | brk | listLit _ | mapLit _ | setLit _ | typeRef _ => []
  | declare _ _ init | declareAt _ _ _ init => [init]
  | assign _ value | ret value | not value => [value]
  | binary _ left right => [left, right]
  | cond test onTrue onFalse => test :: onTrue.toList ++ onFalse.toList
  | block body => body.toList
  | doWhile body test | .whileDo test body => test :: body.toList
  | forEach _ iterable body => iterable :: body.toList
  | call receiver _ _ => [receiver]

/-- The range of the operand table that a node reads, if any. -/
def range? : NodeKind → Option NodeRange
  | listLit r | mapLit r | setLit r | call _ _ r => some r
  | _ => none

/-- Nodes of which a constant expression is made. -/
def isLiteralOnly : NodeKind → Bool
  | literal .. | binary .. | not _ | listLit _ | mapLit _ | setLit _ => true
  | _ => false

end NodeKind

end MeteredScript
