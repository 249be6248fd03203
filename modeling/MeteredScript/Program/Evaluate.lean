import MeteredScript.Evaluation
import MeteredScript.Program

/-!
Evaluation of programs for a host. The strategy is chosen once, when a program is first evaluated.
A program that returned raises the tilt signal on its frame, and one that broke out of no loop
raises the break signal; in a nested evaluation the frame is guarded.
-/

namespace MeteredScript

namespace Program

def job (p : Program) (e : Environment) (this : Value) : Job := ⟨e, p.arena, this⟩

/-- Runs the statements of a program, whatever its strategy. -/
def interpret (p : Program) (e : Environment) (fuel : Nat) (this : Value) (frame : Nat) :
    Run Value :=
  (p.job e this).interpret fuel p.first frame

/-- The scalar that a constant program yields on a machine of its own. -/
def fold? (p : Program) (e : Environment) (fuel : Nat) : Option Value :=
  if !p.literalOnly || p.isEmpty then none
  else
    let (frame, m) := Machine.bare.pushFrame (.named [] none)
    match ((p.interpret e fuel .null frame).run m).1 with
    | .ok v => if v.isScalar then some v else none
    | .error _ => none

/-- What the accelerator of a program answers. -/
def accelerate (p : Program) (e : Environment) (fuel : Nat) : Strategy :=
  match p.accelerator with
  | .literalFold => ((p.fold? e fuel).map fun v => .replay (.ok v)).getD .interpret
  | .interpretOnly => .interpret
  | .recorder answer => (answer.map .replay).getD .interpret

/-- Chooses the strategy unless that is done. -/
def select (p : Program) (e : Environment) (fuel : Nat) : Program :=
  if p.strategy.isSome then p
  else
    { p with
      strategy := some (p.accelerate e fuel)
      calls := { p.calls with asked := p.calls.asked + 1 } }

/-- Counts one session of the accelerator, which ends however the evaluation ends. -/
def countSession (p : Program) : Program :=
  { p with
    calls := { p.calls with acquired := p.calls.acquired + 1, released := p.calls.released + 1 } }

/-- Runs a program by its strategy. -/
def execute (p : Program) (e : Environment) (fuel : Nat) (this : Value) (frame : Nat) :
    Run Value :=
  match p.strategy with
  | some (.replay (.ok v)) => return v
  | some (.replay (.error exit)) => throw exit
  | _ => p.interpret e fuel this frame

/-- Hands the value of a run to the host and raises the signal for a return or a break. -/
def deliver (frame : Nat) (x : Run Value) : Run Value := fun m =>
  match x.run m with
  | (.error (.returned v), m) => (.ok v, m.raise .tilt frame)
  | (.error .broke, m) => (.ok .null, m.raise .brk frame)
  | (result, m) => (result, m)

/-- Evaluates a program whose strategy has been chosen. -/
def evaluate (p : Program) (e : Environment) (fuel : Nat) (this : Value) (frame : Nat) :
    Run Value :=
  deliver frame (p.execute e fuel this frame)

/-- Evaluates a program in a guarded frame over the given one. -/
def evaluateNested (p : Program) (e : Environment) (fuel : Nat) (this : Value) (frame : Nat) :
    Run Value := do
  let guarded ← modifyGet (·.pushGuarded frame)
  p.evaluate e fuel this guarded

/-- Writes a value to the variable that a program of one name stands for. Other programs take no
value. -/
def setValue (p : Program) (e : Environment) (frame : Nat) (v : Value) : Act Value :=
  match p.single?.bind p.arena.kind? with
  | some (.var name) => do
    Scope.assign e.names frame name v
    return v
  | _ => return .null

end Program

end MeteredScript
