import MeteredScript.Store

/-!
Sets of keys in insertion order. A value that has no key is no element of any set.
-/

namespace MeteredScript.Sets

def empty (account : Nat) : StoreM Handle := StoreM.allocate account (.elements [])

/-- Adds an element; false if it was there before. -/
def insertKey (h : Handle) (k : Key) : StoreM Bool := do
  let keys ← StoreM.elements h
  if k ∈ keys then return false
  StoreM.commit h (.elements (keys ++ [k])) [(.added, .element, k.toValue)]
  return true

/-- A new set on an account. A value without a key ends it; what was added before stays counted. -/
def create (account : Nat) (values : List Value) : StoreM Handle := do
  let h ← empty account
  values.forM fun v => do
    let k ← Key.ofValue v
    let _ ← insertKey h k
  return h

def contains (s : Store) (h : Handle) (v : Value) : Bool :=
  match Key.ofValue v with
  | .ok k => k ∈ s.elements h
  | .error _ => false

def containsAll (s : Store) (h : Handle) (values : List Value) : Bool := values.all (contains s h)

def values (s : Store) (h : Handle) : List Value := (s.elements h).map Key.toValue

def add (h : Handle) (v : Value) : StoreM Bool := do
  h.checkOwner "add"
  let k ← Key.ofValue v
  insertKey h k

def remove (h : Handle) (v : Value) : StoreM Bool := do
  h.checkOwner "remove"
  match Key.ofValue v with
  | .error _ => return false
  | .ok k =>
    let keys ← StoreM.elements h
    if k ∈ keys then
      StoreM.commit h (.elements (keys.erase k)) [(.removed, .element, k.toValue)]
      return true
    else return false

def clear (h : Handle) : StoreM Unit := do
  h.checkOwner "clear"
  let keys ← StoreM.elements h
  StoreM.commit h (.elements []) (keys.map fun k => (.removed, .element, k.toValue))

end MeteredScript.Sets
