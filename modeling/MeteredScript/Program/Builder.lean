import MeteredScript.Host
import MeteredScript.Program

/-!
Building programs. A node can only have operands that are there already; statements are appended to
the chain of the program, and other chains are linked as sequences. A sequence is linked step by
step: what was linked before a refused link stays linked.
-/

namespace MeteredScript

inductive BuildFault where
  | alreadyLinked (node : NodeId)
  | unknownNode (node : NodeId)
  /-- More operands than one range can have. -/
  | rangeTooLong
  | fault (f : Fault)
deriving DecidableEq, Repr

def BuildFault.message : BuildFault → String
  | alreadyLinked node => s!"node NodeId({node}) is already linked into a chain"
  | unknownNode node => s!"node NodeId({node}) does not belong to this program"
  | rangeTooLong => s!"node list longer than {Arena.rangeLimit} entries"
  | fault f => f.message

/-- A fault met while building keeps its own kind. -/
def BuildFault.kindName : BuildFault → String
  | alreadyLinked .. => "AlreadyLinked"
  | unknownNode .. => "UnknownNode"
  | rangeTooLong => "RangeTooLong"
  | fault f => f.kindName

structure Builder where
  arena : Arena
  first : Option NodeId
  last : Option NodeId
deriving DecidableEq, Repr

instance : Inhabited Builder := ⟨⟨.empty, none, none⟩⟩

abbrev BuildM := ExceptT BuildFault (StateM Builder)

/-- What a program is told besides its nodes. -/
structure BuildOptions where
  source : Option String
  egress : Option ValueType
  accelerator : Accelerator
  configuration : Nat
  strongTyping : Bool

namespace Builder

def empty : Builder := default

/-- Refuses a node that is not there. -/
def requireKnown (ids : List NodeId) : BuildM Unit := do
  match ids.find? (!(← get).arena.contains ·) with
  | some node => throw (.unknownNode node)
  | none => return ()

/-- Adds a node whose operands are all there. -/
def node (kind : NodeKind) : BuildM NodeId := do
  requireKnown kind.operands
  modifyGet fun b =>
    let (id, arena) := b.arena.push kind
    (id, { b with arena })

/-- Adds a range of operands that are all there. -/
def range (ids : List NodeId) : BuildM NodeRange := do
  requireKnown ids
  if Arena.rangeLimit < ids.length then throw .rangeTooLong
  modifyGet fun b =>
    let (r, arena) := b.arena.pushRange ids
    (r, { b with arena })

/-- Links a node to another one. -/
def link (prev next : NodeId) : BuildM Unit := do
  requireKnown [prev, next]
  let linked ← modifyGet fun b =>
    let (linked, arena) := b.arena.link prev next
    (linked, { b with arena })
  if !linked then throw (.alreadyLinked next)

/-- Links each node of a list to the one after it. -/
def linkAll : List NodeId → BuildM Unit
  | prev :: next :: rest => do
    link prev next
    linkAll (next :: rest)
  | _ => return ()

/-- Links nodes in order and answers the first. -/
def sequence (ids : List NodeId) : BuildM (Option NodeId) := do
  linkAll ids
  return ids.head?

/-- Appends the chain that starts at a node to the statements of the program. -/
def pushStatement (id : NodeId) : BuildM Unit := do
  requireKnown [id]
  let b ← get
  match b.last with
  | some last => link last id
  | none =>
    if b.arena.isLinked id then throw (.alreadyLinked id)
    modify fun b => { b with first := some id }
  modify fun b => { b with last := (b.arena.chain (some id)).getLast? }

/-- A node of which it is known before any run that its declared type does not fit. -/
def typeFault? (a : Arena) : NodeKind → Option Fault
  | .literal value (some t) =>
    if t.accepts value.type then none else some (.typeMismatch t.name value.type.name)
  | .declare _ (some t) init | .declareAt _ _ (some t) init =>
    let actual := a.egress init
    if actual = .any || t.accepts actual then none else some (.typeMismatch t.name actual.name)
  | _ => none

/-- Ends the building. Under strong typing the first node with a type fault refuses the program. -/
def finish (b : Builder) (options : BuildOptions) : Except BuildFault Program :=
  let kinds := b.arena.nodes.toList.map (·.kind)
  let fault := if options.strongTyping then kinds.findSome? (typeFault? b.arena) else none
  match fault with
  | some f => .error (.fault f)
  | none =>
    let single := b.first.filter fun id => (b.arena.next? id).isNone
    .ok {
      arena := b.arena
      first := b.first
      source := options.source
      egress := match single with
        | some id => b.arena.egress id
        | none => options.egress.getD .any
      ingress := none
      literalOnly := kinds.all NodeKind.isLiteralOnly
      strongTyping := options.strongTyping
      configuration := options.configuration
      accelerator := options.accelerator
      strategy := none
      calls := ⟨0, 0, 0⟩ }

end Builder

end MeteredScript
