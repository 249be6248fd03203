import MeteredScript.Store.Display
import MeteredScript.Store.Equality
import MeteredScript.Store.Position
import MeteredScript.Store.Sorting

/-!
Lists. Reading is possible through any handle; changing needs an owner. A changed element is
reported at its index, a removed run at the index where it began, and copies are new lists on the
account of the list they are taken from. Sorting and reversing in place change nothing that is
accounted for, so they report nothing.
-/

namespace MeteredScript.Lists

/-- Reports of values that were added in a row from an index on. -/
def addedRun (start : Nat) (values : List Value) : List (Change × Slot × Value) :=
  (values.zipIdx start).map fun (v, i) => (.added, .index i, v)

/-- A new list on an account. -/
def create (account : Nat) (values : List Value) : StoreM Handle := do
  let h ← StoreM.allocate account (.items [])
  StoreM.commit h (.items values) (addedRun 0 values)
  return h

/-- A new list on the account of another one. -/
def sibling (l : Handle) (values : List Value) : StoreM Handle := do
  create (← StoreM.accountOf l) values

/-! ## Reading -/

def get (l : Handle) (index : Int) : StoreM Value := do
  let items ← StoreM.items l
  let i ← Position.ofElement index items.length
  return items.getD i .null

def contains (s : Store) (l : Handle) (v : Value) : Bool := (s.items l).any (s.same · v)

def containsAll (s : Store) (l : Handle) (values : List Value) : Bool := values.all (contains s l)

/-- The index of the first equal element from a bound on, or -1. -/
def indexOf (s : Store) (l : Handle) (v : Value) (start : Int) : Int :=
  let items := s.items l
  let first := Position.clamp start items.length
  match (items.drop first).findIdx? (s.same · v) with
  | some i => first + i
  | none => -1

def join (s : Store) (l : Handle) (separator : String) : String :=
  separator.intercalate ((s.items l).map s.display)

/-! ## Copying -/

/-- The elements between two clamped bounds. -/
def sliceOf (items : List Value) (start stop : Int) : List Value :=
  (items.take (Position.clamp stop items.length)).drop (Position.clamp start items.length)

def slice (l : Handle) (start stop : Int) : StoreM Handle := do
  sibling l (sliceOf (← StoreM.items l) start stop)

/-- The elements between two bounds that both exist and are in order. -/
def subList (l : Handle) (start stop : Int) : StoreM Handle := do
  let items ← StoreM.items l
  let first ← Position.ofGap start items.length
  let last ← Position.ofGap stop items.length
  if last < first then throw (.indexOutOfRange start items.length)
  sibling l ((items.take last).drop first)

def concat (l : Handle) (values : List Value) : StoreM Handle := do
  sibling l ((← StoreM.items l) ++ values)

def toSorted (l : Handle) (ascending : Bool) : StoreM Handle := do
  let sorted ← Sorting.sortBy id ascending (← StoreM.items l)
  sibling l sorted

def toReversed (l : Handle) : StoreM Handle := do sibling l (← StoreM.items l).reverse

/-- A list cut into what stays before a run, the run, and what stays after it. -/
structure Cut where
  start : Nat
  before : List Value
  taken : List Value
  after : List Value

/-- Cuts a clamped number of elements out of a list at a clamped bound. -/
def cut (items : List Value) (start count : Int) : Cut :=
  let first := Position.clamp start items.length
  let taken := Position.clampCount count (items.length - first)
  ⟨first, items.take first, (items.drop first).take taken, items.drop (first + taken)⟩

def toSpliced (l : Handle) (start count : Int) (values : List Value) : StoreM Handle := do
  let c := cut (← StoreM.items l) start count
  sibling l (c.before ++ values ++ c.after)

/-- A copy with one element exchanged; a negative index counts from the end. -/
def withElement (l : Handle) (index : Int) (v : Value) : StoreM Handle := do
  let items ← StoreM.items l
  let resolved := if index < 0 then index + items.length else index
  match Position.ofElement resolved items.length with
  | .ok i => sibling l (items.set i v)
  | .error _ => throw (.indexOutOfRange index items.length)

/-! ## Changing -/

def push (l : Handle) (v : Value) : StoreM Unit := do
  l.checkOwner "push"
  let items ← StoreM.items l
  StoreM.commit l (.items (items ++ [v])) [(.added, .index items.length, v)]

/-- Removes the element at an index and answers it; null if there is none. -/
def removeIndex (l : Handle) (i : Nat) : StoreM Value := do
  let items ← StoreM.items l
  match items[i]? with
  | some v =>
    StoreM.commit l (.items (items.eraseIdx i)) [(.removed, .index i, v)]
    return v
  | none => return .null

def pop (l : Handle) : StoreM Value := do
  l.checkOwner "pop"
  removeIndex l ((← StoreM.items l).length - 1)

def shift (l : Handle) : StoreM Value := do
  l.checkOwner "shift"
  removeIndex l 0

def insert (l : Handle) (index : Int) (v : Value) : StoreM Unit := do
  l.checkOwner "insert"
  let items ← StoreM.items l
  let i ← Position.ofGap index items.length
  StoreM.commit l (.items (items.take i ++ v :: items.drop i)) [(.added, .index i, v)]

def unshift (l : Handle) (v : Value) : StoreM Unit := insert l 0 v

def addAll (l : Handle) (values : List Value) : StoreM Unit := do
  l.checkOwner "add_all"
  let items ← StoreM.items l
  StoreM.commit l (.items (items ++ values)) (addedRun items.length values)

def insertAll (l : Handle) (index : Int) (values : List Value) : StoreM Unit := do
  l.checkOwner "insert_all"
  let items ← StoreM.items l
  let i ← Position.ofGap index items.length
  StoreM.commit l (.items (items.take i ++ values ++ items.drop i)) (addedRun i values)

def removeAt (l : Handle) (index : Int) : StoreM Value := do
  l.checkOwner "remove_at"
  let i ← Position.ofElement index (← StoreM.items l).length
  removeIndex l i

/-- Removes the first equal element, if there is one. -/
def removeValue (l : Handle) (v : Value) : StoreM Bool := do
  l.checkOwner "remove_value"
  let s ← StoreM.current
  match (s.items l).findIdx? (s.same · v) with
  | some i => do
    let _ ← removeIndex l i
    return true
  | none => return false

/-- Exchanges one element and answers the old one. -/
def set (l : Handle) (index : Int) (v : Value) : StoreM Value := do
  l.checkOwner "set"
  let items ← StoreM.items l
  let i ← Position.ofElement index items.length
  let old := items.getD i .null
  StoreM.commit l (.items (items.set i v)) [(.removed, .index i, old), (.added, .index i, v)]
  return old

/-- Removes all elements, the last one first. -/
def clear (l : Handle) : StoreM Unit := do
  l.checkOwner "clear"
  let items ← StoreM.items l
  StoreM.commit l (.items []) (items.zipIdx.reverse.map fun (v, i) => (.removed, .index i, v))

/-- Exchanges a run for other values and answers the run as a new list. -/
def splice (l : Handle) (start count : Int) (values : List Value) : StoreM Handle := do
  l.checkOwner "splice"
  let c := cut (← StoreM.items l) start count
  StoreM.commit l (.items (c.before ++ values ++ c.after))
    (c.taken.map (fun v => (.removed, .index c.start, v)) ++ addedRun c.start values)
  sibling l c.taken

def sort (l : Handle) (ascending : Bool) : StoreM Unit := do
  l.checkOwner "sort"
  let sorted ← Sorting.sortBy id ascending (← StoreM.items l)
  StoreM.commit l (.items sorted) []

def reverse (l : Handle) : StoreM Unit := do
  l.checkOwner "reverse"
  StoreM.commit l (.items (← StoreM.items l).reverse) []

/-- Overwrites the elements between two clamped bounds. -/
def fill (l : Handle) (v : Value) (start stop : Int) : StoreM Unit := do
  l.checkOwner "fill"
  let items ← StoreM.items l
  let first := Position.clamp start items.length
  let replaced := sliceOf items start stop
  StoreM.commit l
    (.items (items.take first ++ replaced.map (fun _ => v) ++ items.drop (first + replaced.length)))
    ((replaced.zipIdx first).flatMap fun (old, i) =>
      [(.removed, .index i, old), (.added, .index i, v)])

end MeteredScript.Lists
