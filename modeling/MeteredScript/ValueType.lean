/-!
Types of values, known before a program runs or seen while it runs. Of what is accepted where: every
type accepts null, `any` accepts all, and a float is accepted from an int.
-/

namespace MeteredScript

inductive ValueType where
  | any | null | bool | int | float | str | list | map | set | native
deriving DecidableEq, Inhabited, Repr

namespace ValueType

def name : ValueType → String
  | any => "any" | null => "null" | bool => "bool" | int => "int" | float => "float"
  | str => "str" | list => "list" | map => "map" | set => "set" | native => "class"

def all : List ValueType := [any, null, bool, int, float, str, list, map, set, native]

def ofName? (text : String) : Option ValueType := all.find? (·.name = text)

/-- Whether a value of type `actual` may stand where `expected` is asked for. -/
def accepts (expected actual : ValueType) : Bool :=
  match expected, actual with
  | any, _ => true
  | _, null => true
  | float, int => true
  | _, _ => expected = actual

def isContainer : ValueType → Bool
  | list | map | set => true
  | _ => false

theorem accepts_self (t : ValueType) : t.accepts t = true := by cases t <;> rfl

theorem accepts_null (t : ValueType) : t.accepts .null = true := by cases t <;> rfl

theorem accepts_trans {a b c : ValueType} (hab : a.accepts b = true) (hbc : b.accepts c = true) :
    a.accepts c = true := by
  revert hab hbc; cases a <;> cases b <;> cases c <;> decide

theorem ofName?_name (t : ValueType) : ofName? t.name = some t := by cases t <;> decide

end ValueType

end MeteredScript
