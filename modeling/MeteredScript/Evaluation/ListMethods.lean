import MeteredScript.Evaluation.Arguments
import MeteredScript.Store.Lists

/-!
Methods that scripts call on lists.
-/

namespace MeteredScript

inductive ListMethod where
  | size | isEmpty | get | set | push | add | pop | shift | unshift | addAll | removeAt | remove
  | contains | containsAll | indexOf | join | slice | subList | concat | sort | toSorted | reverse
  | toReversed | splice | toSpliced | withElement | fill | clear | toUnmodifiable
deriving DecidableEq, Repr

namespace ListMethod

open Arguments

def byName : List (String × ListMethod) := [
  ("size", size), ("length", size), ("isEmpty", isEmpty), ("get", get), ("set", set),
  ("push", push), ("add", add), ("pop", pop), ("shift", shift), ("unshift", unshift),
  ("addAll", addAll), ("removeAt", removeAt), ("remove", remove), ("contains", contains),
  ("containsAll", containsAll), ("indexOf", indexOf), ("join", join), ("slice", slice),
  ("subList", subList), ("concat", concat), ("sort", sort), ("toSorted", toSorted),
  ("reverse", reverse), ("toReversed", toReversed), ("splice", splice), ("toSpliced", toSpliced),
  ("with", withElement), ("fill", fill), ("clear", clear), ("toUnmodifiable", toUnmodifiable)]

/-- Elements to append: those of a list or set, or the one value given. -/
def appended (s : Store) (args : List Value) : Except Fault (List Value) :=
  match value args 0 with
  | .list _ | .set _ => elements s args 0
  | single => .ok [single]

/-- Calls a method, under the name that faults report, on a list. -/
def call (l : Handle) (method : ListMethod) (name : String) (args : List Value) :
    StoreM Value := do
  let s ← StoreM.current
  match method with
  | size => do
    require name 0 args
    return .ofLength (s.items l).length
  | isEmpty => do
    require name 0 args
    return .bool (s.items l).isEmpty
  | get => do
    require name 1 args
    Lists.get l (← int args 0)
  | set => do
    require name 2 args
    Lists.set l (← int args 0) (value args 1)
  | push => do
    require name 1 args
    Lists.push l (value args 0)
    return .bool true
  | add =>
    if args.length = 2 then do
      Lists.insert l (← int args 0) (value args 1)
      return .null
    else do
      require name 1 args
      Lists.push l (value args 0)
      return .bool true
  | pop => do
    require name 0 args
    Lists.pop l
  | shift => do
    require name 0 args
    Lists.shift l
  | unshift => do
    require name 1 args
    Lists.unshift l (value args 0)
    return .null
  | addAll =>
    if args.length = 2 then do
      let index ← int args 0
      Lists.insertAll l index (← elements s args 1)
      return .bool true
    else do
      require name 1 args
      Lists.addAll l (← elements s args 0)
      return .bool true
  | removeAt => do
    require name 1 args
    Lists.removeAt l (← int args 0)
  | remove => do
    require name 1 args
    return .bool (← Lists.removeValue l (value args 0))
  | contains => do
    require name 1 args
    return .bool (Lists.contains s l (value args 0))
  | containsAll => do
    require name 1 args
    return .bool (Lists.containsAll s l (← elements s args 0))
  | indexOf => do
    requireBetween name 1 2 args
    return .int (Int64.ofInt (Lists.indexOf s l (value args 0) (← intOr args 1 0)))
  | join => do
    requireBetween name 0 1 args
    let separator ← if args.isEmpty then pure "," else text args 0
    return .str (Lists.join s l separator)
  | slice => do
    requireBetween name 0 2 args
    let start ← intOr args 0 0
    let stop ← intOr args 1 openEnd
    return .list (← Lists.slice l start stop)
  | subList => do
    require name 2 args
    let start ← int args 0
    let stop ← int args 1
    return .list (← Lists.subList l start stop)
  | concat => do
    require name 1 args
    return .list (← Lists.concat l (← appended s args))
  | sort => do
    requireBetween name 0 1 args
    Lists.sort l (← ascending args)
    return .null
  | toSorted => do
    requireBetween name 0 1 args
    return .list (← Lists.toSorted l (← ascending args))
  | reverse => do
    require name 0 args
    Lists.reverse l
    return .null
  | toReversed => do
    require name 0 args
    return .list (← Lists.toReversed l)
  | splice => do
    if args.isEmpty then throw (.arityMismatch name 1 0)
    let start ← int args 0
    let count ← intOr args 1 openEnd
    return .list (← Lists.splice l start count (args.drop 2))
  | toSpliced => do
    if args.isEmpty then throw (.arityMismatch name 1 0)
    let start ← int args 0
    let count ← intOr args 1 openEnd
    return .list (← Lists.toSpliced l start count (args.drop 2))
  | withElement => do
    require name 2 args
    return .list (← Lists.withElement l (← int args 0) (value args 1))
  | fill => do
    requireBetween name 1 3 args
    let start ← intOr args 1 0
    let stop ← intOr args 2 openEnd
    Lists.fill l (value args 0) start stop
    return .list l
  | clear => do
    require name 0 args
    Lists.clear l
    return .null
  | toUnmodifiable => do
    require name 0 args
    return .list (← StoreM.readOnly l)

end ListMethod

end MeteredScript
