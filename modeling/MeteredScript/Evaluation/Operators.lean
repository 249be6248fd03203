import MeteredScript.Node
import MeteredScript.Store.Display
import MeteredScript.Store.Equality

/-!
Binary operators on values. Integer arithmetic is exact or an overflow; an operation with a float
follows the arithmetic of floats; `+` with a text on either side joins texts; texts and numbers are
ordered, and any two values can be tested for equality.
-/

namespace MeteredScript.Operators

/-- The texts of the operands' types in a mismatch. -/
def mismatch (left right : Value) (op : BinaryOp) : Fault :=
  .typeMismatch ("operands for `" ++ op.symbol ++ "`") (left.typeName ++ " and " ++ right.typeName)

/-- The integer, if it fits into 64 bits. -/
def exact (op : BinaryOp) (i : Int) : Except Fault Value :=
  if Int64.minValue.toInt ≤ i ∧ i ≤ Int64.maxValue.toInt then .ok (.int (Int64.ofInt i))
  else .error (.integerOverflow op.symbol)

/-- What an ordering says to a relational operator; `none` for other operators. -/
def relation (o : Ordering) : BinaryOp → Option Bool
  | .lt => some (o = .lt)
  | .ltEq => some (o ≠ .gt)
  | .gt => some (o = .gt)
  | .gtEq => some (o ≠ .lt)
  | _ => none

/-- Integer arithmetic and order. Division truncates toward zero, and the remainder has the sign of
the dividend; the remainder of the one division that overflows overflows too. -/
def onInts (a b : Int64) (op : BinaryOp) : Except Fault Value :=
  let x := a.toInt
  let y := b.toInt
  match op with
  | .add => exact op (x + y)
  | .sub => exact op (x - y)
  | .mul => exact op (x * y)
  | .div => if y = 0 then .error .divisionByZero else exact op (x.tdiv y)
  | .rem =>
    if y = 0 then .error .divisionByZero
    else if Int64.maxValue.toInt < x.tdiv y then .error (.integerOverflow op.symbol)
    else exact op (x.tmod y)
  | _ =>
    match relation (compare x y) op with
    | some b => .ok (.bool b)
    | none => .error (mismatch (.int a) (.int b) op)

/-- Float arithmetic and order. Against a not-a-number every order is false, and so are the other
operators on floats. -/
def onFloats (x y : Binary64) (op : BinaryOp) : Value :=
  match op with
  | .add => .float (x.add y)
  | .sub => .float (x.sub y)
  | .mul => .float (x.mul y)
  | .div => .float (x.div y)
  | .rem => .float (x.rem y)
  | _ => .bool (((x.compare? y).bind (relation · op)).getD false)

def onTexts (a b : String) (op : BinaryOp) : Except Fault Value :=
  match relation (compare a b) op with
  | some b => .ok (.bool b)
  | none => .error (mismatch (.str a) (.str b) op)

/-- A binary operation on two values that have both been evaluated. -/
def evaluate (s : Store) (left right : Value) (op : BinaryOp) : Except Fault Value :=
  match op with
  | .eq => .ok (.bool (s.same left right))
  | .notEq => .ok (.bool !(s.same left right))
  | _ =>
    match left, right with
    | .int a, .int b => onInts a b op
    | .int a, .float y => .ok (onFloats (.ofInt a.toInt) y op)
    | .float x, .int b => .ok (onFloats x (.ofInt b.toInt) op)
    | .float x, .float y => .ok (onFloats x y op)
    | .str a, .str b => if op = .add then .ok (.str (a ++ b)) else onTexts a b op
    | .str a, _ =>
      if op = .add then .ok (.str (a ++ s.display right)) else .error (mismatch left right op)
    | _, .str b =>
      if op = .add then .ok (.str (s.display left ++ b)) else .error (mismatch left right op)
    | _, _ => .error (mismatch left right op)

end MeteredScript.Operators
