import MeteredScript.Evaluation.Arguments
import MeteredScript.Store.Maps

/-!
Methods that scripts call on maps.
-/

namespace MeteredScript

inductive MapMethod where
  | size | isEmpty | get | containsKey | containsValue | put | putAll | putIfAbsent | replace
  | remove | clear | keys | values | slice | duplicate | sortByKey | sortByValue | toSortedByKey
  | toSortedByValue | reverse | toReversed | invert | toInverted | toUnmodifiable
deriving DecidableEq, Repr

namespace MapMethod

open Arguments

def byName : List (String × MapMethod) := [
  ("size", size), ("isEmpty", isEmpty), ("get", get), ("containsKey", containsKey),
  ("containsValue", containsValue), ("put", put), ("putAll", putAll),
  ("putIfAbsent", putIfAbsent), ("replace", replace), ("remove", remove), ("clear", clear),
  ("keys", keys), ("keySet", keys), ("values", values), ("slice", slice), ("clone", duplicate),
  ("sortByKey", sortByKey), ("sortByValue", sortByValue), ("toSorted", toSortedByKey),
  ("toSortedByKey", toSortedByKey), ("toSortedByValue", toSortedByValue), ("reverse", reverse),
  ("toReversed", toReversed), ("invert", invert), ("toInverted", toInverted),
  ("toUnmodifiable", toUnmodifiable)]

/-- Calls a method, under the name that faults report, on a map. -/
def call (m : Handle) (method : MapMethod) (name : String) (args : List Value) :
    StoreM Value := do
  let s ← StoreM.current
  match method with
  | size => do
    require name 0 args
    return .ofLength (s.entries m).length
  | isEmpty => do
    require name 0 args
    return .bool (s.entries m).isEmpty
  | get => do
    require name 1 args
    return Maps.get s m (← key args 0)
  | containsKey => do
    require name 1 args
    return .bool (Maps.containsKey s m (← key args 0))
  | containsValue => do
    require name 1 args
    return .bool (Maps.containsValue s m (value args 0))
  | put => do
    require name 2 args
    Maps.put m (← key args 0) (value args 1)
  | putAll => do
    require name 1 args
    match value args 0 with
    | .map other => do
      Maps.putAll m (s.entries other)
      return .null
    | v => throw (.typeMismatch "map" v.typeName)
  | putIfAbsent => do
    require name 2 args
    Maps.putIfAbsent m (← key args 0) (value args 1)
  | replace =>
    if args.length = 3 then do
      return .bool (← Maps.replaceIf m (← key args 0) (value args 1) (value args 2))
    else do
      require name 2 args
      Maps.replace m (← key args 0) (value args 1)
  | remove => do
    require name 1 args
    Maps.remove m (← key args 0)
  | clear => do
    require name 0 args
    Maps.clear m
    return .null
  | keys => do
    require name 0 args
    return .list (← Maps.keys m)
  | values => do
    require name 0 args
    return .list (← Maps.values m)
  | slice => do
    requireBetween name 0 2 args
    let start ← intOr args 0 0
    let stop ← intOr args 1 openEnd
    return .map (← Maps.slice m start stop)
  | duplicate => do
    require name 0 args
    return .map (← Maps.duplicate m)
  | sortByKey => do
    requireBetween name 0 1 args
    Maps.sortByKey m (← ascending args)
    return .null
  | sortByValue => do
    requireBetween name 0 1 args
    Maps.sortByValue m (← ascending args)
    return .null
  | toSortedByKey => do
    requireBetween name 0 1 args
    return .map (← Maps.toSortedByKey m (← ascending args))
  | toSortedByValue => do
    requireBetween name 0 1 args
    return .map (← Maps.toSortedByValue m (← ascending args))
  | reverse => do
    require name 0 args
    Maps.reverse m
    return .null
  | toReversed => do
    require name 0 args
    return .map (← Maps.toReversed m)
  | invert => do
    require name 0 args
    Maps.invert m
    return .null
  | toInverted => do
    require name 0 args
    return .map (← Maps.toInverted m)
  | toUnmodifiable => do
    require name 0 args
    return .map (← StoreM.readOnly m)

end MapMethod

end MeteredScript
