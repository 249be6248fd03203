import MeteredScript.Store

/-!
Texts of values and containers. The text of a value is what scripts see; the report of a value also
tells texts from other values and shows the identities of containers.
-/

namespace MeteredScript

/-- Items between two brackets. -/
def bracketed (opening : String) (items : List String) (closing : String) : String :=
  opening ++ ", ".intercalate items ++ closing

def Key.display : Key → String
  | .null => "null"
  | .bool b => toString b
  | .int i => toString i.toInt
  | .float x => x.display
  | .str s => s

namespace Store

/-- The text of a value, through at most `depth` containers inside each other. -/
def displayTo (s : Store) : Nat → Value → String
  | _, .null => "null"
  | _, .bool b => toString b
  | _, .int i => toString i.toInt
  | _, .float x => x.display
  | _, .str text => text
  | _, .native t => "class " ++ t.name
  | 0, .list _ => "[]"
  | depth + 1, .list h => bracketed "[" ((s.items h).map (displayTo s depth)) "]"
  | 0, .map _ => "\x7b\x7d"
  | depth + 1, .map h =>
    bracketed "\x7b" ((s.entries h).map fun (k, v) => k.display ++ "=" ++ displayTo s depth v) "\x7d"
  | _, .set h => bracketed "[" ((s.elements h).map Key.display) "]"

def display (s : Store) (v : Value) : String := s.displayTo (s.containers.size + 1) v

/-- A value among the particulars of a container. -/
def reportValue (s : Store) (v : Value) : String :=
  let numbered (kind : String) (h : Handle) := s!"{kind}#{s.idOf h}({s.display v})"
  match v with
  | .str text => Text.quoted text
  | .list h => numbered "List" h
  | .map h => numbered "Map" h
  | .set h => numbered "Set" h
  | _ => s.display v

private def reportContainer (s : Store) (kind label : String) (h : Handle) (contents : String) :
    String :=
  let id := s.idOf h
  let readOnly := h.isReadOnly
  s!"{kind} \x7b id: ContainerId({id}), read_only: {readOnly}, {label}: {contents} \x7d"

def reportList (s : Store) (h : Handle) : String :=
  s.reportContainer "ExecList" "values" h (bracketed "[" ((s.items h).map s.reportValue) "]")

def reportMap (s : Store) (h : Handle) : String :=
  let pairs := (s.entries h).map fun (k, v) => "(" ++ k.report ++ ", " ++ s.reportValue v ++ ")"
  s.reportContainer "ExecMap" "entries" h (bracketed "[" pairs "]")

def reportSet (s : Store) (h : Handle) : String :=
  s.reportContainer "ExecSet" "elements" h (bracketed "[" ((s.elements h).map Key.report) "]")

end Store

end MeteredScript
