import MeteredScript.Store

/-!
The context of an evaluation: the account for what it creates, the limits it runs under, and the
number of liveness checks it has counted. Every turn of a loop starts with such a check, which reads
the clock and the cancellation anew. Both only ever go one way, from not yet to over, so what all
checks read is told by the count at which it turns (`Moment`). The count is kept in 64 bits; under a
limit on checks it stays within one more than the limit or than what it starts from.
-/

namespace MeteredScript

/-- A point in time, as the liveness checks see it: they find it over once a number of them have
been counted, or never do. -/
inductive Moment where
  | never
  | after (checks : Nat)
deriving DecidableEq, Repr

namespace Moment

/-- A moment that is over before anything is checked. -/
def past : Moment := .after 0

/-- What a check reads that follows a number of others. -/
def isOver (count : Nat) : Moment → Bool
  | never => false
  | after checks => checks ≤ count

/-- A flag that stays as it is. -/
instance : Coe Bool Moment := ⟨fun flag => if flag then past else never⟩

instance : Coe Moment Bool := ⟨fun moment => moment = past⟩

end Moment

structure Limits where
  deadline : Option Moment
  memory : Option Int64
  iterations : Option Nat
deriving DecidableEq, Repr

namespace Limits

def none : Limits := ⟨.none, .none, .none⟩

def isUnbounded (l : Limits) : Bool := l.deadline.isNone && l.memory.isNone && l.iterations.isNone

/-- The deadline after a number of seconds that no check takes; the clock cannot hold one that is
too far away. -/
def deadlineAfter (seconds : Nat) : Option Moment :=
  if seconds = 0 then some .past
  else if 0x7fffffffffffffff ≤ seconds then .none
  else some .never

end Limits

structure Context where
  account : Nat
  limits : Limits
  cancelled : Moment
  iterations : Nat
deriving DecidableEq, Repr

namespace Context

def unlimited (account : Nat) : Context := ⟨account, .none, .never, 0⟩

instance : Inhabited Context := ⟨unlimited 0⟩

/-- The limit that a context exceeds at the check that is counted as number `count`: the deadline
first, then the memory in use by the account, then the count itself. -/
def exceeded (c : Context) (usage : Option Int64) (count : Nat) : Option Fault :=
  if c.limits.deadline.any (·.isOver c.iterations) then some .deadlineExceeded
  else
    match c.limits.memory, usage with
    | some limit, some used =>
      if limit < used then some (.memoryLimitExceeded used.toInt limit.toInt) else overCount
    | _, _ => overCount
where
  overCount : Option Fault :=
    match c.limits.iterations with
    | some limit => if limit < count then some (.iterationLimitExceeded limit) else none
    | none => none

/-- One liveness check. A cancelled context does not count it. -/
def check (c : Context) (usage : Option Int64) : Except Fault Unit × Context :=
  if c.cancelled.isOver c.iterations then (.error .executionCancelled, c)
  else
    let c' := { c with iterations := c.iterations + 1 }
    match c.exceeded usage (c.iterations + 1) with
    | some fault => (.error fault, c')
    | none => (.ok (), c')

private def optional {α : Type} (text : α → String) : Option α → String
  | some x => "Some(" ++ text x ++ ")"
  | none => "None"

/-- The limits and counts, for logs. A deadline has no text. -/
def report (c : Context) : String :=
  let memory := optional (fun (i : Int64) => toString i.toInt) c.limits.memory
  let iterations := optional (fun (n : Nat) => toString n) c.limits.iterations
  let limits := s!"ExecutionLimits \x7b deadline: None, memory_limit: {memory}, " ++
    s!"max_iterations: {iterations} \x7d"
  let cancelled := c.cancelled.isOver c.iterations
  let count := c.iterations
  s!"ExecutionContext \x7b limits: {limits}, cancelled: {cancelled}, iterations: {count}, .. \x7d"

end Context

end MeteredScript
