import MeteredScript.Program.Evaluate
import MeteredScript.Proofs.Evaluation.Fuel
import MeteredScript.Proofs.Store.Mirror

/-!
# Evaluations that end

There are two ways for an evaluation not to end: however much fuel it has is used up, or it comes to
print a list or a map that leads back to itself, whose text has no end. All other texts are complete
at the depth that is the number of containers, so what is not by then is never. The evaluation that
gives up at such a text does what evaluation does as long as it does not give up.
-/

namespace MeteredScript

namespace Job

/-- The evaluation of one node, given up before a text without an end is printed. -/
def endNode (j : Job) (ev : Evaluator) (fuel frame : Nat) : NodeKind → Run Value
  | .binary .add left right => do
    let l ← ev left frame
    let r ← ev right frame
    let s := (← get).store
    if (Operators.printed? l r).all (s.nests s.containers.size) then
      Run.pureAct (Operators.evaluate s l r .add)
    else throw .exhausted
  | kind => j.evalNode ev fuel frame kind

/-- Evaluates a node of the arena, and gives up before a text without an end is printed. -/
def evalEnding (j : Job) : Nat → Evaluator
  | 0 => fun _ _ => throw .exhausted
  | fuel + 1 => fun id frame =>
    match j.arena.kind? id with
    | some kind => j.endNode (evalEnding j fuel) fuel frame kind
    | none => throw .exhausted

theorem endNode_refines (j : Job) (ev : Evaluator) (fuel frame : Nat) (kind : NodeKind) :
    Run.Refines (j.endNode ev fuel frame kind) (j.evalNode ev fuel frame kind) := by
  fun_cases endNode with
  | case1 left right =>
    refine (Run.Refines.refl _).bind fun l => (Run.Refines.refl _).bind fun r => ?_
    refine (Run.Refines.refl _).bind fun m => ?_
    dsimp only
    split
    · exact .refl _
    · exact fun _ => .inl rfl
  | case2 => exact .refl _

theorem evalEnding_refines (j : Job) (fuel : Nat) (id : NodeId) (frame : Nat) :
    Run.Refines (j.evalEnding fuel id frame) (j.eval fuel id frame) := by
  induction fuel generalizing id frame with
  | zero => exact fun _ => .inl rfl
  | succ fuel ih =>
    rw [evalEnding, eval]
    dsimp only
    cases j.arena.kind? id with
    | none => exact .refl _
    | some kind =>
      exact (j.endNode_refines _ fuel frame kind).trans
        (evalNode_refines ih (Nat.le_refl fuel) frame kind)

end Job

namespace Program

variable (p : Program) (e : Environment) (fuel : Nat) (this : Value) (frame : Nat)

/-- Runs the statements of a program, and gives up before a text without an end is printed. -/
def interpretEnding : Run Value :=
  (p.job e this).evalChain ((p.job e this).evalEnding fuel) p.first frame

/-- Interpreting a program comes to an end, with a value or by leaving early. -/
def Ends (m : Machine) : Prop := ((p.interpretEnding e fuel this frame).run m).1 ≠ .error .exhausted

variable {p e fuel this frame}

theorem Ends.run_eq {m : Machine} (h : p.Ends e fuel this frame m) :
    (p.interpret e fuel this frame).run m = (p.interpretEnding e fuel this frame).run m :=
  ((Job.evalChain_refines ((p.job e this).evalEnding_refines fuel) p.first frame m).resolve_left
    h).symm

end Program

end MeteredScript
