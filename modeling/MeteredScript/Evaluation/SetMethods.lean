import MeteredScript.Evaluation.Arguments

/-!
Methods that scripts call on sets.
-/

namespace MeteredScript

inductive SetMethod where
  | size | isEmpty | add | remove | contains | containsAll | clear | toUnmodifiable
deriving DecidableEq, Repr

namespace SetMethod

open Arguments

def byName : List (String × SetMethod) := [
  ("size", size), ("isEmpty", isEmpty), ("add", add), ("remove", remove), ("contains", contains),
  ("containsAll", containsAll), ("clear", clear), ("toUnmodifiable", toUnmodifiable)]

/-- Calls a method, under the name that faults report, on a set. -/
def call (h : Handle) (method : SetMethod) (name : String) (args : List Value) :
    StoreM Value := do
  let s ← StoreM.current
  match method with
  | size => do
    require name 0 args
    return .ofLength (s.elements h).length
  | isEmpty => do
    require name 0 args
    return .bool (s.elements h).isEmpty
  | add => do
    require name 1 args
    return .bool (← Sets.add h (value args 0))
  | remove => do
    require name 1 args
    return .bool (← Sets.remove h (value args 0))
  | contains => do
    require name 1 args
    return .bool (Sets.contains s h (value args 0))
  | containsAll => do
    require name 1 args
    return .bool (Sets.containsAll s h (← elements s args 0))
  | clear => do
    require name 0 args
    Sets.clear h
    return .null
  | toUnmodifiable => do
    require name 0 args
    return .set (← StoreM.readOnly h)

end SetMethod

end MeteredScript
