import MeteredScript.Configuration
import MeteredScript.Store.Lists

/-!
Stock native functions, by name: small ones on their arguments, and ones that show or change the
context of the evaluation.
-/

namespace MeteredScript.Native

def first : Native := fun args => return args.headD .null

def count : Native := fun args => return .ofLength args.length

def fail : Native := fun _ => throw (.custom "native failure")

/-- A new list of the arguments on the account of the context. -/
def list : Native := fun args => do
  let account := (← get).context.account
  return .list (← Act.onStore (Lists.create account args))

def iterations : Native := fun _ => return .ofLength (← get).context.iterations

def tick : Native := fun _ => do
  Act.checkLiveness
  return .null

def cancel : Native := fun _ => do
  modify fun m => { m with context := { m.context with cancelled := .past } }
  return .null

def byName : List (String × Native) := [
  ("first", first), ("count", count), ("fail", fail), ("list", list), ("iters", iterations),
  ("tick", tick), ("cancel", cancel)]

end MeteredScript.Native
