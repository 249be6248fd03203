import MeteredScript.Node

/-!
The arena of the nodes of one program. Statements are chained by links from a node to the next one;
a node is the end of at most one link and the start of at most one, and a link that would close a
circle is refused. Every node has a result type, inferred when it is added.
-/

namespace MeteredScript

structure Node where
  kind : NodeKind
  egress : ValueType
  next : Option NodeId
  /-- Whether another node links to this one. -/
  linked : Bool
deriving DecidableEq, Repr

structure Arena where
  nodes : Array Node
  operandTable : Array NodeId
deriving DecidableEq, Repr

namespace Arena

def empty : Arena := ⟨#[], #[]⟩

instance : Inhabited Arena := ⟨empty⟩

/-- The largest number of operands in one range. -/
def rangeLimit : Nat := 65535

def size (a : Arena) : Nat := a.nodes.size

def contains (a : Arena) (id : NodeId) : Bool := id < a.size

def kind? (a : Arena) (id : NodeId) : Option NodeKind := a.nodes[id]?.map (·.kind)

def next? (a : Arena) (id : NodeId) : Option NodeId := a.nodes[id]?.bind (·.next)

def egress (a : Arena) (id : NodeId) : ValueType := (a.nodes[id]?.map (·.egress)).getD .any

def isLinked (a : Arena) (id : NodeId) : Bool := a.nodes[id]?.any (·.linked)

/-- The nodes of a range of the operand table. -/
def operands (a : Arena) (r : NodeRange) : List NodeId :=
  (a.operandTable.extract r.start (r.start + r.length)).toList

/-- The chain from a node on, up to a number of nodes. -/
def chainTo (a : Arena) : Nat → Option NodeId → List NodeId
  | 0, _ => []
  | _, none => []
  | fuel + 1, some id => id :: chainTo a fuel (a.next? id)

/-- The chain of statements that starts at a node. No chain is longer than the arena. -/
def chain (a : Arena) (head : Option NodeId) : List NodeId := a.chainTo a.size head

/-! ## Result types -/

/-- The type of an arithmetic operation on operands of two types. -/
def arithmeticType (op : BinaryOp) (left right : ValueType) : ValueType :=
  match left, right with
  | .int, .int => .int
  | .float, .int | .float, .float | .int, .float => .float
  | .str, _ | _, .str => if op = .add then .str else .any
  | _, _ => .any

/-- The type that the value of a node is known to have. -/
def infer (a : Arena) : NodeKind → ValueType
  | .literal value declared => declared.getD value.type
  | .not _ => .bool
  | .binary op left right =>
    if op.isBoolean then .bool else arithmeticType op (a.egress left) (a.egress right)
  | .declare _ type init | .declareAt _ _ type init => type.getD (a.egress init)
  | .assign _ value | .ret value => a.egress value
  | .brk => .null
  | .listLit _ => .list
  | .mapLit _ => .map
  | .setLit _ => .set
  | .typeRef _ => .native
  | .this | .var _ | .cond .. | .block _ | .doWhile .. | .whileDo .. | .forEach .. | .call .. => .any

/-! ## Growth -/

/-- Adds a node; its number is the size of the arena before. -/
def push (a : Arena) (kind : NodeKind) : NodeId × Arena :=
  (a.size, { a with nodes := a.nodes.push ⟨kind, a.infer kind, none, false⟩ })

/-- Adds a range of operands to the table. -/
def pushRange (a : Arena) (ids : List NodeId) : NodeRange × Arena :=
  if ids.isEmpty then (⟨0, 0⟩, a)
  else (⟨a.operandTable.size, ids.length⟩, { a with operandTable := a.operandTable ++ ids })

/-- Whether `next` may become the successor of `prev`. -/
def canLink (a : Arena) (prev next : NodeId) : Bool :=
  a.contains prev && a.contains next && (a.next? prev).isNone && !a.isLinked next &&
    !(a.chain (some next)).contains prev

/-- Makes `next` the successor of `prev`, if it may be. -/
def link (a : Arena) (prev next : NodeId) : Bool × Arena :=
  if a.canLink prev next then
    let nodes := a.nodes.modify prev fun n => { n with next := some next }
    (true, { a with nodes := nodes.modify next fun n => { n with linked := true } })
  else (false, a)

end Arena

end MeteredScript
