import MeteredScript.Store.Sets

/-!
Arguments of method calls: how many there have to be, and which types they have to have.
-/

namespace MeteredScript.Arguments

/-- Asks for an exact number of arguments. -/
def require (method : String) (expected : Nat) (args : List Value) : Except Fault Unit :=
  if args.length = expected then .ok () else .error (.arityMismatch method expected args.length)

/-- Asks for a number of arguments within bounds; the fault names the upper one. -/
def requireBetween (method : String) (low high : Nat) (args : List Value) : Except Fault Unit :=
  if low ≤ args.length ∧ args.length ≤ high then .ok ()
  else .error (.arityMismatch method high args.length)

def typeNameAt (args : List Value) (i : Nat) : String :=
  (args[i]?.map Value.typeName).getD "nothing"

def value (args : List Value) (i : Nat) : Value := args.getD i .null

def int (args : List Value) (i : Nat) : Except Fault Int :=
  match args[i]?.bind Value.asInt? with
  | some n => .ok n.toInt
  | none => .error (.typeMismatch "int" (typeNameAt args i))

def intOr (args : List Value) (i : Nat) (otherwise : Int) : Except Fault Int :=
  if i < args.length then int args i else .ok otherwise

def text (args : List Value) (i : Nat) : Except Fault String :=
  match args[i]?.bind Value.asText? with
  | some s => .ok s
  | none => .error (.typeMismatch "str" (typeNameAt args i))

/-- The direction of a sort: ascending unless the first argument says otherwise. -/
def ascending (args : List Value) : Except Fault Bool :=
  match args with
  | [] => .ok true
  | v :: _ => v.requireBool

def key (args : List Value) (i : Nat) : Except Fault Key := Key.ofValue (value args i)

/-- The elements of a list or set given as an argument. -/
def elements (s : Store) (args : List Value) (i : Nat) : Except Fault (List Value) :=
  match args[i]? with
  | some (.list l) => .ok (s.items l)
  | some (.set h) => .ok (Sets.values s h)
  | _ => .error (.typeMismatch "list" (typeNameAt args i))

/-- The end of a range that was left open. -/
def openEnd : Int := Int64.maxValue.toInt

end MeteredScript.Arguments
