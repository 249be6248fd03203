import MeteredScript.Arena
import MeteredScript.Evaluation.Calls
import MeteredScript.Evaluation.Operators
import MeteredScript.Evaluation.Run

/-!
Evaluation of nodes. The evaluation of one node (`evalNode`) is given the evaluation of others, and
`eval` closes the circle with fuel, which bounds the depth of nodes inside each other and the turns
of each single loop. Operands are evaluated from left to right, and the first one that leaves early
ends the node.
-/

namespace MeteredScript

/-- What stays the same while a program runs. -/
structure Job where
  environment : Environment
  arena : Arena
  this : Value

namespace Job

/-- The evaluation of a node in a frame. -/
abbrev Evaluator := NodeId → Nat → Run Value

def names (j : Job) : Interner := j.environment.names

/-- The value of a constant. -/
def literal (j : Job) : Literal → Value
  | .null => .null
  | .bool b => .bool b
  | .int i => .int i
  | .float x => .float x
  | .str n => .str (j.names.lookup n)

/-- Evaluates the statements of a chain; the last value counts. -/
def evalChain (j : Job) (ev : Evaluator) (head : Option NodeId) (frame : Nat) : Run Value :=
  (j.arena.chain head).foldlM (fun _ id => ev id frame) .null

/-- Evaluates a nested chain in a frame of its own, which an empty one does not need. -/
def evalBlock (j : Job) (ev : Evaluator) (head : Option NodeId) (frame : Nat) : Run Value :=
  match head with
  | none => return .null
  | some _ => do
    let inner ← Run.act (Scope.enter frame)
    j.evalChain ev head inner

def evalAll (ev : Evaluator) (ids : List NodeId) (frame : Nat) : Run (List Value) :=
  ids.mapM (ev · frame)

/-- Evaluates keys and values by turns. A key without a value is paired with null. -/
def evalPairs (ev : Evaluator) (frame : Nat) : List NodeId → Run (List (Key × Value))
  | [] => return []
  | [k] => do
    let key ← Run.pureAct (Key.ofValue (← ev k frame))
    return [(key, .null)]
  | k :: v :: rest => do
    let key ← ev k frame
    let value ← ev v frame
    let key ← Run.pureAct (Key.ofValue key)
    return (key, value) :: (← evalPairs ev frame rest)

def evalTest (ev : Evaluator) (test : NodeId) (frame : Nat) : Run Bool := do
  Run.pureAct (← ev test frame).requireBool

/-- What a loop over a value goes through: elements, or the keys of a map. -/
def iterated (s : Store) : Value → Except Fault (List Value)
  | .list l => .ok (s.items l)
  | .set h => .ok (Sets.values s h)
  | .map m => .ok ((s.entries m).map (·.1.toValue))
  | v => .error (.typeMismatch "iterable" v.typeName)

/-- The evaluation of one node. The frame of a loop's body is made once per loop, so that a turn
sees the variables of the turns before; conditions are evaluated outside of it. -/
def evalNode (j : Job) (ev : Evaluator) (fuel frame : Nat) : NodeKind → Run Value
  | .literal value declared => do
    match declared with
    | some t =>
      if t.accepts value.type then return j.literal value
      else throw (.fault (.typeMismatch t.name (j.literal value).typeName))
    | none => return j.literal value
  | .this => return j.this
  | .var name => do
    let cell ← Run.act (Scope.resolve j.names frame name)
    return cell.read (← get)
  | .declare name type init => do
    let v ← ev init frame
    let _ ← Run.act (Scope.declare j.names frame name v type)
    return v
  | .declareAt slot name type init => do
    let v ← ev init frame
    let _ ← Run.act (Scope.declareAt j.names frame slot name v type)
    return v
  | .assign name value => do
    let v ← ev value frame
    Run.act (Scope.assign j.names frame name v)
    return v
  | .binary .and left right => do
    if ← evalTest ev left frame then return .bool (← evalTest ev right frame)
    else return .bool false
  | .binary .or left right => do
    if ← evalTest ev left frame then return .bool true
    else return .bool (← evalTest ev right frame)
  | .binary op left right => do
    let l ← ev left frame
    let r ← ev right frame
    Run.pureAct (Operators.evaluate (← get).store l r op)
  | .not operand => return .bool !(← evalTest ev operand frame)
  | .cond test onTrue onFalse => do
    let taken ← evalTest ev test frame
    j.evalBlock ev (if taken then onTrue else onFalse) frame
  | .block body => j.evalBlock ev body frame
  | .doWhile body test => do
    let inner ← Run.act (Scope.enter frame)
    Run.repeatWhile (do
      Run.act Act.checkLiveness
      if ← Run.body (j.evalChain ev body inner) then evalTest ev test frame
      else return false) fuel
  | .whileDo test body => do
    let inner ← Run.act (Scope.enter frame)
    Run.repeatWhile (do
      Run.act Act.checkLiveness
      if ← evalTest ev test frame then Run.body (j.evalChain ev body inner)
      else return false) fuel
  | .forEach item iterable body => do
    let v ← ev iterable frame
    let items ← Run.pureAct (iterated (← get).store v)
    let inner ← Run.act (Scope.enter frame)
    Run.forItems (fun v => do
      Run.act Act.checkLiveness
      let _ ← Run.act (Scope.declare j.names inner item v none)
      Run.body (j.evalChain ev body inner)) items
  | .ret value => do throw (.returned (← ev value frame))
  | .brk => throw .broke
  | .listLit range => do
    let values ← evalAll ev (j.arena.operands range) frame
    let account := (← get).context.account
    return .list (← Run.act (Act.onStore (Lists.create account values)))
  | .mapLit range => do
    let pairs ← evalPairs ev frame (j.arena.operands range)
    let account := (← get).context.account
    return .map (← Run.act (Act.onStore (Maps.create account pairs)))
  | .setLit range => do
    let values ← evalAll ev (j.arena.operands range) frame
    let account := (← get).context.account
    return .set (← Run.act (Act.onStore (Sets.create account values)))
  | .typeRef name => Run.pureAct (j.environment.resolveType name)
  | .call receiver method args => do
    let v ← ev receiver frame
    let values ← evalAll ev (j.arena.operands args) frame
    Run.act (j.environment.call v method values)

/-- Evaluates a node of the arena in a frame. -/
def eval (j : Job) : Nat → Evaluator
  | 0 => fun _ _ => throw .exhausted
  | fuel + 1 => fun id frame =>
    match j.arena.kind? id with
    | some kind => j.evalNode (eval j fuel) fuel frame kind
    | none => throw .exhausted

/-- Evaluates the chain of statements that starts at a node. -/
def interpret (j : Job) (fuel : Nat) (head : Option NodeId) (frame : Nat) : Run Value :=
  j.evalChain (j.eval fuel) head frame

end Job

end MeteredScript
