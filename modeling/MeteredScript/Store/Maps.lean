import MeteredScript.Store.Entries
import MeteredScript.Store.Lists

/-!
Maps in insertion order. Storing null removes the key; only `insert` keeps a null. An entry is
reported with its key, the value that it replaces before the new one.
-/

namespace MeteredScript.Maps

def empty (account : Nat) : StoreM Handle := StoreM.allocate account (.entries [])

/-- Stores a value, or removes the key if the value is null, and answers the previous value. -/
def store (m : Handle) (k : Key) (v : Value) : StoreM Value := do
  let pairs ← StoreM.entries m
  let previous := pairs.lookup k
  let removed := previous.toList.map fun w => (Change.removed, Slot.key k, w)
  if v = .null then StoreM.commit m (.entries (Entries.erase k pairs)) removed
  else StoreM.commit m (.entries (Entries.put k v pairs)) (removed ++ [(.added, .key k, v)])
  return previous.getD .null

def storeAll (m : Handle) (pairs : List (Key × Value)) : StoreM Unit :=
  pairs.forM fun (k, v) => do
    let _ ← store m k v

/-- A new map on an account. -/
def create (account : Nat) (pairs : List (Key × Value)) : StoreM Handle := do
  let m ← empty account
  storeAll m pairs
  return m

/-- A new map on the account of another one. -/
def sibling (m : Handle) (pairs : List (Key × Value)) : StoreM Handle := do
  create (← StoreM.accountOf m) pairs

/-! ## Reading -/

def get (s : Store) (m : Handle) (k : Key) : Value := ((s.entries m).lookup k).getD .null

def containsKey (s : Store) (m : Handle) (k : Key) : Bool := ((s.entries m).lookup k).isSome

def containsValue (s : Store) (m : Handle) (v : Value) : Bool :=
  (s.entries m).any fun (_, w) => s.same w v

/-! ## Copying -/

def keys (m : Handle) : StoreM Handle := do
  Lists.sibling m ((← StoreM.entries m).map (·.1.toValue))

def values (m : Handle) : StoreM Handle := do
  Lists.sibling m ((← StoreM.entries m).map (·.2))

/-- The entries at the positions between two clamped bounds. -/
def slice (m : Handle) (start stop : Int) : StoreM Handle := do
  let pairs ← StoreM.entries m
  sibling m ((pairs.take (Position.clamp stop pairs.length)).drop
    (Position.clamp start pairs.length))

def duplicate (m : Handle) : StoreM Handle := do sibling m (← StoreM.entries m)

def sortedByKey (ascending : Bool) : List (Key × Value) → Except Fault (List (Key × Value)) :=
  Sorting.sortBy (·.1.toValue) ascending

def sortedByValue (ascending : Bool) : List (Key × Value) → Except Fault (List (Key × Value)) :=
  Sorting.sortBy (·.2) ascending

def toSortedByKey (m : Handle) (ascending : Bool) : StoreM Handle := do
  let sorted ← sortedByKey ascending (← StoreM.entries m)
  sibling m sorted

def toSortedByValue (m : Handle) (ascending : Bool) : StoreM Handle := do
  let sorted ← sortedByValue ascending (← StoreM.entries m)
  sibling m sorted

def toReversed (m : Handle) : StoreM Handle := do sibling m (← StoreM.entries m).reverse

/-- The entries of the inverse. A value that several keys hold is mapped to a new list of them; no
list is made unless every value has a key. -/
def inverted (m : Handle) : StoreM (List (Key × Value)) := do
  let groups ← Entries.inverseGroups (← StoreM.entries m)
  groups.mapM fun (k, members) =>
    match members with
    | [single] => return (k, single)
    | _ => return (k, .list (← Lists.sibling m members))

def toInverted (m : Handle) : StoreM Handle := do sibling m (← inverted m)

/-! ## Changing -/

def put (m : Handle) (k : Key) (v : Value) : StoreM Value := do
  m.checkOwner "put"
  store m k v

/-- Stores a value, null included, and answers the previous one. -/
def insert (m : Handle) (k : Key) (v : Value) : StoreM Value := do
  m.checkOwner "insert"
  let pairs ← StoreM.entries m
  let previous := pairs.lookup k
  StoreM.commit m (.entries (Entries.put k v pairs))
    (previous.toList.map (fun w => (.removed, .key k, w)) ++ [(.added, .key k, v)])
  return previous.getD .null

def putAll (m : Handle) (pairs : List (Key × Value)) : StoreM Unit := do
  m.checkOwner "put_all"
  storeAll m pairs

/-- Stores a value unless the key is there, and answers the value found. -/
def putIfAbsent (m : Handle) (k : Key) (v : Value) : StoreM Value := do
  m.checkOwner "put_if_absent"
  match (← StoreM.entries m).lookup k with
  | some w => return w
  | none => if v = .null then return .null else store m k v

/-- Stores a value if the key is there, and answers the previous one. -/
def replace (m : Handle) (k : Key) (v : Value) : StoreM Value := do
  m.checkOwner "replace"
  match (← StoreM.entries m).lookup k with
  | some _ => store m k v
  | none => return .null

/-- Stores a value if the key is there with an equal value. -/
def replaceIf (m : Handle) (k : Key) (expected v : Value) : StoreM Bool := do
  m.checkOwner "replace_if"
  let s ← StoreM.current
  if ((s.entries m).lookup k).any (s.same · expected) then
    let _ ← store m k v
    return true
  else return false

def remove (m : Handle) (k : Key) : StoreM Value := do
  m.checkOwner "remove"
  store m k .null

def clear (m : Handle) : StoreM Unit := do
  m.checkOwner "clear"
  let pairs ← StoreM.entries m
  StoreM.commit m (.entries []) (pairs.map fun (k, v) => (.removed, .key k, v))

def sortByKey (m : Handle) (ascending : Bool) : StoreM Unit := do
  m.checkOwner "sort_by_key"
  let sorted ← sortedByKey ascending (← StoreM.entries m)
  StoreM.commit m (.entries sorted) []

def sortByValue (m : Handle) (ascending : Bool) : StoreM Unit := do
  m.checkOwner "sort_by_value"
  let sorted ← sortedByValue ascending (← StoreM.entries m)
  StoreM.commit m (.entries sorted) []

def reverse (m : Handle) : StoreM Unit := do
  m.checkOwner "reverse"
  StoreM.commit m (.entries (← StoreM.entries m).reverse) []

/-- Exchanges keys and values in place. -/
def invert (m : Handle) : StoreM Unit := do
  m.checkOwner "invert"
  let pairs ← inverted m
  clear m
  storeAll m pairs

end MeteredScript.Maps
