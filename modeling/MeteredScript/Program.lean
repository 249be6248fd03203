import MeteredScript.Arena
import MeteredScript.Evaluation.Run

/-!
Compiled programs: an arena with the head of its statement chain, the types known of what goes in
and comes out, the configuration compiled against, and the accelerator together with the strategy
it chose on first use.
-/

namespace MeteredScript

/-- Strategies that are asked for a faster equivalent of a program. -/
inductive Accelerator where
  /-- Folds constant programs to their value. -/
  | literalFold
  | interpretOnly
  /-- Answers the same for every program, nothing or a fixed ending. -/
  | recorder (answer : Option (Except Exit Value))

def Accelerator.name : Accelerator → String
  | literalFold => "literal-fold"
  | interpretOnly => "interpret-only"
  | recorder _ => "recorder"

/-- How a program is evaluated once this is decided. -/
inductive Strategy where
  | interpret
  | replay (ending : Except Exit Value)

/-- How often an accelerator was asked, and how often its working state was taken and given back. -/
structure Calls where
  asked : Nat
  acquired : Nat
  released : Nat
deriving DecidableEq, Repr

structure Program where
  arena : Arena
  first : Option NodeId
  source : Option String
  egress : ValueType
  ingress : Option ValueType
  literalOnly : Bool
  strongTyping : Bool
  /-- The position of the configuration in the host. -/
  configuration : Nat
  accelerator : Accelerator
  strategy : Option Strategy
  calls : Calls

namespace Program

/-- The only node of a program of one statement. -/
def single? (p : Program) : Option NodeId :=
  p.first.filter fun id => (p.arena.next? id).isNone

def isEmpty (p : Program) : Bool := p.first.isNone

/-- Whether the value that comes out fits the type that is asked for. -/
def isConvertible (p : Program) : Bool := p.ingress.any (·.accepts p.egress)

def isAccelerated (p : Program) : Bool :=
  match p.strategy with
  | some (.replay _) => true
  | _ => false

/-- The flags of a program: constant, convertible, strongly typed. -/
def flags (p : Program) : List String :=
  (if p.literalOnly then ["LITERAL_ONLY"] else []) ++
    (if p.isConvertible then ["CONVERTIBLE"] else []) ++
    if p.strongTyping then ["STRONG_TYPING"] else []

/-- The flags as the bits of a number, the first one lowest. -/
def flagBits (p : Program) : Nat :=
  p.literalOnly.toNat + 2 * p.isConvertible.toNat + 4 * p.strongTyping.toNat

/-- The particulars of a program, for logs. -/
def report (p : Program) : String :=
  let source := (p.source.map fun s => "Some(" ++ Text.quoted s ++ ")").getD "None"
  let nodes := p.arena.size
  let egress := p.egress.name.capitalize
  let ingress := (p.ingress.map fun t => "Some(" ++ t.name.capitalize ++ ")").getD "None"
  let flags := if p.flags.isEmpty then "0x0" else " | ".intercalate p.flags
  let accelerator := Text.quoted p.accelerator.name
  s!"CompiledProgram \x7b source_name: {source}, nodes: {nodes}, known_egress: {egress}, " ++
    s!"known_ingress: {ingress}, flags: ProgramFlags({flags}), accelerator: {accelerator}, .. \x7d"

end Program

end MeteredScript
