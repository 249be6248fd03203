import MeteredScript.Machine

/-!
Runs of programs. A run ends with a value or leaves early: by a fault, by a return, by a break that
no loop has taken yet, or because its fuel is used up, which says nothing about the program.
-/

namespace MeteredScript

/-- Ways to leave an evaluation without a value of its own. -/
inductive Exit where
  | fault (f : Fault)
  | returned (v : Value)
  | broke
  | exhausted
deriving DecidableEq, Repr

abbrev Run := ExceptT Exit (StateM Machine)

namespace Run

/-- An operation on the machine as part of a run. -/
def act {α : Type} (x : Act α) : Run α := fun m =>
  match x.run m with
  | (.ok a, m) => (.ok a, m)
  | (.error f, m) => (.error (.fault f), m)

/-- A pure result as part of a run. -/
def pureAct {α : Type} (x : Except Fault α) : Run α :=
  match x with
  | .ok a => return a
  | .error f => throw (.fault f)

/-- Runs the body of a loop: true if it came to its end, false if it broke off. -/
def body (x : Run Value) : Run Bool := fun m =>
  match x.run m with
  | (.ok _, m) => (.ok true, m)
  | (.error .broke, m) => (.ok false, m)
  | (.error e, m) => (.error e, m)

/-- Takes turns as long as they answer true. -/
def repeatWhile (turn : Run Bool) : Nat → Run Value
  | 0 => throw .exhausted
  | fuel + 1 => fun m =>
    match turn.run m with
    | (.ok true, m) => repeatWhile turn fuel m
    | (.ok false, m) => (.ok .null, m)
    | (.error e, m) => (.error e, m)

/-- Takes a turn for each item as long as turns answer true. -/
def forItems {α : Type} (turn : α → Run Bool) : List α → Run Value
  | [] => return .null
  | item :: rest => fun m =>
    match (turn item).run m with
    | (.ok true, m) => forItems turn rest m
    | (.ok false, m) => (.ok .null, m)
    | (.error e, m) => (.error e, m)

end Run

end MeteredScript
