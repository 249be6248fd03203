import MeteredScript.Value

/-!
Sorting by value. If every value is a number or reads as one, values are sorted as numbers in the
total order; else all have to be texts, which are sorted by their characters. Equal ones keep their
order in both directions.
-/

namespace MeteredScript.Sorting

/-- What values are sorted by. All values of one sort have the same kind of rank. -/
inductive Rank where
  | number (x : Binary64)
  | text (s : String)
deriving DecidableEq, Repr

def Rank.compare : Rank → Rank → Ordering
  | number x, number y => Ord.compare x.rank y.rank
  | text a, text b => Ord.compare a b
  | number _, text _ => .lt
  | text _, number _ => .gt

def textRank (v : Value) : Except Fault Rank :=
  match v with
  | .str s => .ok (.text s)
  | _ => .error (.typeMismatch "number or string" v.typeName)

/-- The ranks of values to be sorted together. -/
def ranks (values : List Value) : Except Fault (List Rank) :=
  match values.mapM Value.numericText? with
  | some numbers => .ok (numbers.map .number)
  | none => values.mapM textRank

/-- Whether the first may stand before the second. -/
def before (ascending : Bool) (a b : Rank) : Bool :=
  if ascending then a.compare b ≠ .gt else b.compare a ≠ .gt

/-- Sorts by the value that `valueOf` takes from each item. -/
def sortBy {α : Type} (valueOf : α → Value) (ascending : Bool) (items : List α) :
    Except Fault (List α) := do
  let keys ← ranks (items.map valueOf)
  let sorted := (keys.zip items).mergeSort fun a b => before ascending a.1 b.1
  return sorted.map (·.2)

end MeteredScript.Sorting
