import MeteredScript.Account

/-!
The store of containers and their accounts. A container changes in one way only (`commit`): its
contents are replaced, and then each change is reported to its account in turn. A report is priced
by the sizes of that moment and moves the container's memory and the account's total alike.
-/

namespace MeteredScript

/-- Contents of a list, a map in insertion order, or a set in insertion order. -/
inductive Contents where
  | items (values : List Value)
  | entries (pairs : List (Key × Value))
  | elements (keys : List Key)
deriving DecidableEq, Repr

structure Container where
  id : Nat
  /-- The position of the account in the store. -/
  account : Nat
  memory : Int64
  contents : Contents
deriving DecidableEq, Repr

structure Store where
  accounts : Array Account
  containers : Array Container

instance : Inhabited Store := ⟨⟨#[], #[]⟩⟩

/-- Operations on the store. What was done before a fault stays done. -/
abbrev StoreM := ExceptT Fault (StateM Store)

namespace Store

/-! ## Reading -/

def items (s : Store) (h : Handle) : List Value :=
  match s.containers[h.target]? with
  | some ⟨_, _, _, .items values⟩ => values
  | _ => []

def entries (s : Store) (h : Handle) : List (Key × Value) :=
  match s.containers[h.target]? with
  | some ⟨_, _, _, .entries pairs⟩ => pairs
  | _ => []

def elements (s : Store) (h : Handle) : List Key :=
  match s.containers[h.target]? with
  | some ⟨_, _, _, .elements keys⟩ => keys
  | _ => []

def memory (s : Store) (h : Handle) : Int64 :=
  (s.containers[h.target]?.map (·.memory)).getD 0

/-- The account of a container, by its position. -/
def accountOf (s : Store) (h : Handle) : Nat :=
  (s.containers[h.target]?.map (·.account)).getD 0

/-- The identity a handle shows: that of the view if it is one. -/
def idOf (s : Store) (h : Handle) : Nat :=
  match h.view with
  | .owner => (s.containers[h.target]?.map (·.id)).getD 0
  | .readOnly id => id

def usage? (s : Store) (account : Nat) : Option Int64 := s.accounts[account]?.bind (·.usage?)

/-- The size of a value; a container has the size of the memory accounted to it. -/
def sizeOf (s : Store) : Value → Int64
  | .null => 0
  | .bool _ => 1
  | .int _ | .float _ | .native _ => 8
  | .str text => textSize text
  | .list h | .map h | .set h => s.memory h

/-! ## Changing -/

def openAccount (s : Store) (tariff : Tariff) (metered : Bool) : Nat × Store :=
  (s.accounts.size, { s with accounts := s.accounts.push (.opened tariff metered) })

/-- Reports one change of a container to its account. -/
def post (s : Store) (target : Nat) (change : Change) (slot : Slot) (value : Value) : Store :=
  match s.containers[target]? with
  | none => s
  | some c =>
    match s.accounts[c.account]? with
    | none => s
    | some a =>
      let report : Report := ⟨change, c.id, slot, value⟩
      let delta := a.tariff.price a.journal report (s.sizeOf value)
      { accounts := s.accounts.modify c.account (·.enter report delta)
        containers := s.containers.modify target fun c =>
          { c with memory := Account.Change.apply change delta c.memory } }

/-- Replaces the contents of a container and reports the changes in order. -/
def commit (s : Store) (target : Nat) (contents : Contents)
    (changes : List (Change × Slot × Value)) : Store :=
  let s := { s with containers := s.containers.modify target ({ · with contents }) }
  changes.foldl (fun s (change, slot, value) => s.post target change slot value) s

/-- Adds a container with an identity of the account. Its contents are not reported yet. -/
def allocate (s : Store) (account : Nat) (contents : Contents) : Handle × Store :=
  let id := (s.accounts[account]?.map (·.issued)).getD 0 + 1
  (⟨s.containers.size, .owner⟩,
    { accounts := s.accounts.modify account (·.issue)
      containers := s.containers.push ⟨id, account, 0, contents⟩ })

/-- A read-only view of the container of a handle. A view of a view is the same view. -/
def readOnly (s : Store) (h : Handle) : Handle × Store :=
  match h.view, s.containers[h.target]? with
  | .owner, some c =>
    let id := (s.accounts[c.account]?.map (·.issued)).getD 0 + 1
    (⟨h.target, .readOnly id⟩, { s with accounts := s.accounts.modify c.account (·.issueView c.id) })
  | _, _ => (h, s)

end Store

namespace StoreM

/-- The store as it stands. -/
def current : StoreM Store := get

def commit (h : Handle) (contents : Contents) (changes : List (Change × Slot × Value)) :
    StoreM Unit :=
  modify (·.commit h.target contents changes)

def allocate (account : Nat) (contents : Contents) : StoreM Handle :=
  modifyGet (·.allocate account contents)

def readOnly (h : Handle) : StoreM Handle := modifyGet (·.readOnly h)

def items (h : Handle) : StoreM (List Value) := return (← get).items h

def entries (h : Handle) : StoreM (List (Key × Value)) := return (← get).entries h

def elements (h : Handle) : StoreM (List Key) := return (← get).elements h

def accountOf (h : Handle) : StoreM Nat := return (← get).accountOf h

end StoreM

end MeteredScript
