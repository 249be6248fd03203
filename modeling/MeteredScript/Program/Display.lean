import MeteredScript.Interner
import MeteredScript.Program

/-!
The text of a program, one statement to a line.
-/

namespace MeteredScript

namespace Arena

private def literalText (names : Interner) : Literal → String
  | .null => "null"
  | .bool b => toString b
  | .int i => toString i.toInt
  | .float x => x.literal
  | .str n => Text.quoted (names.lookup n)

/-- Keys and values by turns, as pairs. -/
private def pairTexts : List String → List String
  | [] => []
  | [k] => [k ++ " : "]
  | k :: v :: rest => (k ++ " : " ++ v) :: pairTexts rest

/-- The text of a node through at most `depth` nodes inside each other. -/
def displayTo (a : Arena) (names : Interner) : Nat → NodeId → String
  | 0, _ => ""
  | depth + 1, id =>
    let text := displayTo a names depth
    let block (head : Option NodeId) :=
      "\x7b " ++ String.join ((a.chain head).map fun id => text id ++ "; ") ++ "\x7d"
    let listed (opening : String) (range : NodeRange) (closing : String) :=
      opening ++ ", ".intercalate ((a.operands range).map text) ++ closing
    let declaration (name : Name) (type : Option ValueType) (init : NodeId) :=
      "var " ++ names.lookup name ++ ((type.map fun t => ": " ++ t.name).getD "") ++ " = " ++ text init
    match a.kind? id with
    | none => ""
    | some (.literal value _) => literalText names value
    | some .this => "this"
    | some (.var name) | some (.typeRef name) => names.lookup name
    | some (.declare name type init) | some (.declareAt _ name type init) =>
      declaration name type init
    | some (.assign name value) => names.lookup name ++ " = " ++ text value
    | some (.binary op left right) =>
      "(" ++ text left ++ " " ++ op.symbol ++ " " ++ text right ++ ")"
    | some (.not operand) => "!" ++ text operand
    | some (.cond test onTrue onFalse) =>
      "if (" ++ text test ++ ") " ++ block onTrue ++
        (if onFalse.isSome then " else " ++ block onFalse else "")
    | some (.block body) => block body
    | some (.doWhile body test) => "do " ++ block body ++ " while (" ++ text test ++ ")"
    | some (.whileDo test body) => "while (" ++ text test ++ ") " ++ block body
    | some (.forEach item iterable body) =>
      "foreach (" ++ names.lookup item ++ " : " ++ text iterable ++ ") " ++ block body
    | some (.ret value) => "return " ++ text value
    | some .brk => "break"
    | some (.listLit range) => listed "[" range "]"
    | some (.setLit range) => listed "\x7b" range "\x7d"
    | some (.mapLit range) =>
      "[" ++ ", ".intercalate (pairTexts ((a.operands range).map text)) ++ "]"
    | some (.call receiver method args) =>
      text receiver ++ "." ++ names.lookup method ++ listed "(" args ")"

end Arena

/-- The text of a program. In a program without circles no node lies deeper than their number. -/
def Program.display (p : Program) (names : Interner) : String :=
  String.join ((p.arena.chain p.first).map fun id =>
    p.arena.displayTo names p.arena.size id ++ ";\n")

end MeteredScript
