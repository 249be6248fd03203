import MeteredScript.Machine
import MeteredScript.Store.Maps

/-!
Names in chains of frames. A name is looked up frame by frame along the lineage of a frame; a
guarded frame stands for its delegate. Declarations go to the first frame of the lineage. Raising a
signal on a frame raises it on all frames below it, while lowering it touches one frame only; a
guarded frame passes a write on only while the signal of its delegate is down.
-/

namespace MeteredScript

/-- Refuses a value that the declared type does not accept. -/
def checkType (type : Option ValueType) (v : Value) : Except Fault Unit :=
  match type with
  | some t => if t.accepts v.type then .ok () else .error (.typeMismatch t.name v.typeName)
  | none => .ok ()

/-! ## Cells -/

namespace DataContext

/-- The entries of a map under texts, over the store. A null is kept like any other value. -/
def ofMap (h : Handle) : DataContext Store where
  get? s key := (s.entries h).lookup (.str key)
  contains s key := ((s.entries h).lookup (.str key)).isSome
  set key v := do
    let _ ← Maps.insert h (.str key) v

/-- A plain list in order of first writing, of which names that begin with `ro_` are not written. -/
def ofList : DataContext (List (String × Value)) where
  get? entries key := entries.lookup key
  contains entries key := (entries.lookup key).isSome
  set key v := do
    if "ro_".toList.isPrefixOf key.toList then throw (.unsupported key)
    modify (Entries.put key v)

end DataContext

instance : Coe (List (String × Value)) HostData := ⟨fun entries => ⟨.ofList, entries⟩⟩

namespace HostSource

def get? (m : Machine) (source : HostSource) (key : String) : Option Value :=
  match source with
  | map h => (DataContext.ofMap h).get? m.store key
  | table i => (m.data i).get? key

def contains (m : Machine) (source : HostSource) (key : String) : Bool :=
  match source with
  | map h => (DataContext.ofMap h).contains m.store key
  | table i => (m.data i).contains key

def set (source : HostSource) (key : String) (v : Value) : Act Unit :=
  match source with
  | map h => Act.onStore ((DataContext.ofMap h).set key v)
  | table i => Act.onData i (HostData.set key v)

end HostSource

namespace Cell

def read (m : Machine) : Cell → Value
  | own i => (m.locals[i]?.map (·.value)).getD .null
  | hosted source key => (source.get? m key).getD .null

def type? (m : Machine) : Cell → Option ValueType
  | own i => m.locals[i]?.bind (·.type)
  | hosted .. => none

def write (v : Value) : Cell → Act Unit
  | own i => do
    let m ← get
    checkType (m.locals[i]?.bind (·.type)) v
    modify fun m => { m with locals := m.locals.modify i fun x => { x with value := v } }
  | hosted source key => source.set key v

/-- What a cell is, for logs. -/
def report (m : Machine) : Cell → String
  | own i =>
    let x := (m.locals[i]?).getD ⟨.null, none⟩
    let value := m.store.reportValue x.value
    let type := match x.type with
      | some t => "Some(" ++ t.name.capitalize ++ ")"
      | none => "None"
    s!"Local(Variable \x7b value: {value}, ty: {type} \x7d)"
  | hosted _ key => s!"Host \x7b key: {Text.quoted key} \x7d"

end Cell

/-! ## Frames -/

/-- Binds a name in the first slot that holds it, or else in a new slot. -/
def bindSlot (name : Name) (index : Nat) :
    List (Option (Name × Nat)) → List (Option (Name × Nat))
  | [] => [some (name, index)]
  | slot :: rest =>
    if slot.any (·.1 = name) then some (name, index) :: rest else slot :: bindSlot name index rest

namespace FrameKind

def next? : FrameKind → Option Nat
  | named _ next | indexed _ next => next
  | guarded _ | hosted _ => none

def bind (name : Name) (index : Nat) : FrameKind → FrameKind
  | named bindings next => named (Entries.put name index bindings) next
  | indexed slots next => indexed (bindSlot name index slots) next
  | kind => kind

/-- The cell that a frame itself has for a name. -/
def find? (m : Machine) (names : Interner) (name : Name) : FrameKind → Option Cell
  | named bindings _ => (bindings.lookup name).map .own
  | indexed slots _ => (slots.findSome? fun slot => slot.filter (·.1 = name)).map (.own ·.2)
  | guarded _ => none
  | hosted source =>
    let key := names.lookup name
    if source.contains m key then some (.hosted source key) else none

end FrameKind

namespace Machine

def kind? (m : Machine) (f : Nat) : Option FrameKind := m.frames[f]?.map (·.kind)

/-- The frame that a frame stands for through `fuel` guarded frames. -/
def baseTo (m : Machine) : Nat → Nat → Nat
  | 0, f => f
  | fuel + 1, f =>
    match m.kind? f with
    | some (.guarded delegate) => baseTo m fuel delegate
    | _ => f

/-- The frame that a frame stands for. As delegates come earlier, the number of a frame bounds the
number of guarded frames on the way. -/
def base (m : Machine) (f : Nat) : Nat := m.baseTo (f + 1) f

/-- The frames in which a name is looked up, in order, through `fuel` frames. -/
def lineageTo (m : Machine) : Nat → Nat → List Nat
  | 0, _ => []
  | fuel + 1, f =>
    match m.kind? f with
    | none => []
    | some (.guarded delegate) => lineageTo m fuel delegate
    | some kind => f :: (kind.next?.map (lineageTo m fuel)).getD []

/-- The frames in which a name is looked up, in order. -/
def lineage (m : Machine) (f : Nat) : List Nat := m.lineageTo (f + 1) f

/-- The cell that one frame has for a name. -/
def findIn (m : Machine) (names : Interner) (name : Name) (f : Nat) : Option Cell :=
  (m.kind? f).bind (·.find? m names name)

def find? (m : Machine) (names : Interner) (f : Nat) (name : Name) : Option Cell :=
  m.findIn names name (m.base f)

/-- The cell that a name stands for in a chain. -/
def resolve? (m : Machine) (names : Interner) (f : Nat) (name : Name) : Option Cell :=
  (m.lineage f).findSome? (m.findIn names name)

def isResolvable (m : Machine) (names : Interner) (f : Nat) (name : Name) : Bool :=
  (m.lineage f).any fun g => (m.findIn names name g).isSome

/-- The cell bound in a slot of an indexed frame. -/
def slot? (m : Machine) (f slot : Nat) : Option Cell :=
  match m.kind? f with
  | some (.indexed slots _) => slots[slot]?.join.map (.own ·.2)
  | _ => none

def pushFrame (kind : FrameKind) (m : Machine) : Nat × Machine :=
  (m.frames.size, { m with frames := m.frames.push (.new kind) })

/-! ## Signals -/

def signal (m : Machine) (s : Signal) (f : Nat) : Bool := m.frames[m.base f]?.any (·.signal s)

def setOwn (m : Machine) (s : Signal) (on : Bool) (f : Nat) : Machine :=
  { m with frames := m.frames.modify f (·.setSignal s on) }

/-- Raises a signal along a chain of at most `fuel` frames. -/
def raiseTo (s : Signal) : Nat → Nat → Machine → Machine
  | 0, _, m => m
  | fuel + 1, f, m =>
    match m.kind? f with
    | none => m
    | some (.guarded delegate) => if m.signal s delegate then m else raiseTo s fuel delegate m
    | some kind =>
      match kind.next? with
      | some next => raiseTo s fuel next (m.setOwn s true f)
      | none => m.setOwn s true f

def raise (s : Signal) (f : Nat) (m : Machine) : Machine := raiseTo s (f + 1) f m

/-- Lowers a signal of one frame. Through a guarded frame this has no effect: a signal that is up is
guarded, and one that is down stays down. -/
def lower (s : Signal) (f : Nat) (m : Machine) : Machine :=
  match m.kind? f with
  | some (.guarded _) => m
  | _ => m.setOwn s false f

def setSignal (s : Signal) (f : Nat) (on : Bool) (m : Machine) : Machine :=
  if on then m.raise s f else m.lower s f

/-- A new guarded frame; the tilt of the delegate is lowered once. -/
def pushGuarded (delegate : Nat) (m : Machine) : Nat × Machine :=
  (m.lower .tilt delegate).pushFrame (.guarded delegate)

end Machine

/-! ## Declarations and assignments -/

namespace Scope

/-- Adds a variable whose value its type accepts. -/
def newVariable (v : Value) (type : Option ValueType) : Act Nat := do
  checkType type v
  modifyGet fun m => (m.locals.size, { m with locals := m.locals.push ⟨v, type⟩ })

def updateKind (f : Nat) (update : FrameKind → FrameKind) : Act Unit :=
  modify fun m =>
    { m with frames := m.frames.modify f fun frame => { frame with kind := update frame.kind } }

/-- Declares a name in the first frame of a chain. A host frame writes the value to its data and
leaves the type unused. -/
def declare (names : Interner) (f : Nat) (name : Name) (v : Value) (type : Option ValueType) :
    Act Cell := do
  let base := (← get).base f
  match (← get).kind? base with
  | some (.hosted source) =>
    let key := names.lookup name
    source.set key v
    return .hosted source key
  | _ =>
    let i ← newVariable v type
    updateKind base (·.bind name i)
    return .own i

/-- Declares a name in a slot if the first frame of a chain is indexed, which has to have it; other
frames go by the name alone. -/
def declareAt (names : Interner) (f slot : Nat) (name : Name) (v : Value)
    (type : Option ValueType) : Act Cell := do
  let base := (← get).base f
  match (← get).kind? base with
  | some (.indexed slots next) =>
    if slots.length ≤ slot then throw (.indexOutOfRange slot slots.length)
    let i ← newVariable v type
    updateKind base fun _ => .indexed (slots.set slot (some (name, i))) next
    return .own i
  | _ => declare names f name v type

def resolve (names : Interner) (f : Nat) (name : Name) : Act Cell := do
  match (← get).resolve? names f name with
  | some cell => return cell
  | none => throw (.nameNotFound (names.lookup name))

/-- Writes the variable that a name stands for, or else declares the name without a type. -/
def assign (names : Interner) (f : Nat) (name : Name) (v : Value) : Act Unit := do
  if (← get).isResolvable names f name then
    (← resolve names f name).write v
  else
    let _ ← declare names f name v none

/-- Enters a new frame of named variables above another. -/
def enter (f : Nat) : Act Nat := modifyGet (·.pushFrame (.named [] (some f)))

end Scope

end MeteredScript
