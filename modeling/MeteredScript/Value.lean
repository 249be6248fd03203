import MeteredScript.ClassPath
import MeteredScript.Fault
import MeteredScript.Number.Reader
import MeteredScript.Number.Text
import MeteredScript.Text.Blank
import MeteredScript.ValueType

/-!
Values of scripts. Scalars are held directly; a list, map or set is a handle to a container of the
store, so that copies of a value share the container. Keys are the scalars that can index a map or
be an element of a set, in one canonical form each.
-/

namespace MeteredScript

/-- How a handle reaches its container: to change it, or to read it only. A read-only view has an
identity of its own. -/
inductive View where
  | owner
  | readOnly (id : Nat)
deriving DecidableEq, Inhabited, Repr

structure Handle where
  target : Nat
  view : View
deriving DecidableEq, Inhabited, Repr

namespace Handle

def isReadOnly (h : Handle) : Bool := h.view ≠ .owner

/-- Refuses to change a container through a read-only view. -/
def checkOwner (h : Handle) (operation : String) : Except Fault Unit :=
  if h.isReadOnly then .error (.unsupported operation) else .ok ()

end Handle

/-- A reference to a native type, with the name it was registered under. -/
structure NativeType where
  path : ClassPath
  name : String
deriving DecidableEq, Inhabited, Repr

inductive Value where
  | null
  | bool (b : Bool)
  | int (i : Int64)
  | float (x : Binary64)
  | str (s : String)
  | list (h : Handle)
  | map (h : Handle)
  | set (h : Handle)
  | native (t : NativeType)
deriving DecidableEq, Inhabited, Repr

/-- Keys of maps and elements of sets. -/
inductive Key where
  | null
  | bool (b : Bool)
  | int (i : Int64)
  | float (x : Binary64)
  | str (s : String)
deriving DecidableEq, Inhabited, Repr

/-- A length as a 64-bit number. -/
def boundedLength (n : Nat) : Int64 := Int64.ofNat (min n 0x7fffffffffffffff)

namespace Value

def type : Value → ValueType
  | null => .null | bool _ => .bool | int _ => .int | float _ => .float | str _ => .str
  | list _ => .list | map _ => .map | set _ => .set | native _ => .native

def typeName (v : Value) : String := v.type.name

def isScalar : Value → Bool
  | null | bool _ | int _ | float _ | str _ => true
  | _ => false

/-- The container a value is a handle to. -/
def handle? : Value → Option Handle
  | list h | map h | set h => some h
  | _ => none

def asBool? : Value → Option Bool
  | bool b => some b
  | _ => none

def asInt? : Value → Option Int64
  | int i => some i
  | _ => none

def asText? : Value → Option String
  | str s => some s
  | _ => none

/-- The value of a number; an int is rounded to the nearest float. -/
def asNumber? : Value → Option Binary64
  | int i => some (.ofInt i.toInt)
  | float x => some x
  | _ => none

/-- The value of a number or of a text that reads as one, blanks around it apart. -/
def numericText? : Value → Option Binary64
  | str s => Binary64.ofText? (Text.trim s.toList)
  | v => v.asNumber?

def ofLength (n : Nat) : Value := int (boundedLength n)

def requireBool (v : Value) : Except Fault Bool :=
  match v with
  | bool b => .ok b
  | _ => .error (.typeMismatch "bool" v.typeName)

end Value

namespace Key

/-- The key of a float: the zeros share one key, and so do all that are not numbers. -/
def ofFloat (x : Binary64) : Key :=
  float (if x.isZero then .zero false else if x.isNaN then .nan false else x)

def ofValue (v : Value) : Except Fault Key :=
  match v with
  | .null => .ok null
  | .bool b => .ok (bool b)
  | .int i => .ok (int i)
  | .float x => .ok (ofFloat x)
  | .str s => .ok (str s)
  | _ => .error (.typeMismatch "hashable scalar" v.typeName)

def toValue : Key → Value
  | null => .null
  | bool b => .bool b
  | int i => .int i
  | float x => .float x
  | str s => .str s

def typeName (k : Key) : String := k.toValue.typeName

/-- The place of a key's kind among the kinds. -/
private def kindRank : Key → Nat
  | null => 0 | bool _ => 1 | int _ => 2 | float _ => 3 | str _ => 4

/-- Keys are ordered by kind, then by value; floats are ordered by their bits. -/
protected def compare : Key → Key → Ordering
  | bool a, bool b => Ord.compare a.toNat b.toNat
  | int a, int b => Ord.compare a.toInt b.toInt
  | float a, float b => Ord.compare a.bits.toNat b.bits.toNat
  | str a, str b => Ord.compare a b
  | a, b => Ord.compare a.kindRank b.kindRank

/-- The text of a key among the particulars of a container. -/
def report : Key → String
  | null => "Null"
  | bool b => s!"Bool({b})"
  | int i => s!"Int({i.toInt})"
  | float x => s!"Float({x.bits.toNat})"
  | str s => s!"Str({Text.quoted s})"

end Key

end MeteredScript
