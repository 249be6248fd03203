import MeteredScript.Context

/-!
The state that an evaluation works on: the store of containers, the variables, the frames that bind
names to variables, the data of the host, and the context. Frames are made in order, each one only on
top of earlier ones.
-/

namespace MeteredScript

/-- A local variable; its declared type, if any, is checked on every write. -/
structure Variable where
  value : Value
  type : Option ValueType
deriving DecidableEq, Repr

/-- Data under names as a host provides it: how names are read, asked for and written, over a state
of any kind. -/
structure DataContext (σ : Type) where
  get? : σ → String → Option Value
  contains : σ → String → Bool
  set : String → Value → ExceptT Fault (StateM σ) Unit

/-- Data that has no names and takes none. -/
def DataContext.void {σ : Type} : DataContext σ :=
  ⟨fun _ _ => none, fun _ _ => false, fun _ _ => pure ()⟩

/-- Data of a host with what it keeps: a list of names and values, to which it gives a meaning of its
own. Data over a state of another kind can keep the list of all that was written. -/
structure HostData where
  rules : DataContext (List (String × Value))
  state : List (String × Value)

namespace HostData

instance : Inhabited HostData := ⟨⟨.void, []⟩⟩

def get? (d : HostData) (key : String) : Option Value := d.rules.get? d.state key

def contains (d : HostData) (key : String) : Bool := d.rules.contains d.state key

def set (key : String) (v : Value) : ExceptT Fault (StateM HostData) Unit := fun d =>
  let (result, state) := (d.rules.set key v).run d.state
  (result, { d with state })

end HostData

/-- Where a host keeps the variables of a frame: in a map of the store or in data of its own. -/
inductive HostSource where
  | map (h : Handle)
  | table (index : Nat)
deriving DecidableEq, Repr

/-- A place that a name can stand for. -/
inductive Cell where
  | own (index : Nat)
  | hosted (source : HostSource) (key : String)
deriving DecidableEq, Repr

inductive FrameKind where
  /-- Names bound to variables. -/
  | named (bindings : List (Name × Nat)) (next : Option Nat)
  /-- Numbered slots, each of them free or bound to a name and a variable. -/
  | indexed (slots : List (Option (Name × Nat))) (next : Option Nat)
  /-- Another frame with its signals guarded. -/
  | guarded (delegate : Nat)
  /-- Names that the host resolves; such a frame ends a chain. -/
  | hosted (source : HostSource)
deriving DecidableEq, Repr

/-- Signals to the host: a program returned early, or left a loop that is not its own. -/
inductive Signal where
  | tilt | brk
deriving DecidableEq, Repr

structure Frame where
  kind : FrameKind
  tilt : Bool
  brk : Bool
deriving DecidableEq, Repr

namespace Frame

def new (kind : FrameKind) : Frame := ⟨kind, false, false⟩

def signal (f : Frame) : Signal → Bool
  | .tilt => f.tilt
  | .brk => f.brk

def setSignal (f : Frame) (signal : Signal) (on : Bool) : Frame :=
  match signal with
  | .tilt => { f with tilt := on }
  | .brk => { f with brk := on }

end Frame

structure Machine where
  store : Store
  locals : Array Variable
  frames : Array Frame
  tables : Array HostData
  context : Context

instance : Inhabited Machine := ⟨⟨default, #[], #[], #[], default⟩⟩

/-- Operations on the machine. What was done before a fault stays done. -/
abbrev Act := ExceptT Fault (StateM Machine)

/-- Runs an operation on the store of the machine. -/
def Act.onStore {α : Type} (x : StoreM α) : Act α := fun m =>
  let store := m.store
  let m := { m with store := default }
  let (result, store) := x.run store
  (result, { m with store })

namespace Machine

def data (m : Machine) (i : Nat) : HostData := m.tables.getD i default

def setData (m : Machine) (i : Nat) (d : HostData) : Machine :=
  { m with tables := m.tables.setIfInBounds i d }

def usage? (m : Machine) : Option Int64 := m.store.usage? m.context.account

/-- A machine with one free account and an unlimited context on it. -/
def bare : Machine :=
  let (account, store) := (default : Store).openAccount .free false
  ⟨store, #[], #[], #[], .unlimited account⟩

end Machine

/-- Runs an operation on data of the host. -/
def Act.onData {α : Type} (i : Nat) (x : ExceptT Fault (StateM HostData) α) : Act α := fun m =>
  let (result, d) := x.run (m.data i)
  (result, m.setData i d)

/-- The liveness check of the context. -/
def Act.checkLiveness : Act Unit := fun m =>
  let (result, context) := m.context.check m.usage?
  (result, { m with context })

end MeteredScript
