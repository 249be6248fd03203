import MeteredScript.Evaluation.Arguments
import MeteredScript.Store.Lists
import MeteredScript.Text.Case

/-!
Methods that scripts call on texts. The pieces of a split text are a new list.
-/

namespace MeteredScript

inductive TextMethod where
  | length | isEmpty | toUpperCase | toLowerCase | trim | contains | startsWith | endsWith | split
deriving DecidableEq, Repr

namespace TextMethod

open Arguments

def byName : List (String × TextMethod) := [
  ("length", length), ("isEmpty", isEmpty), ("toUpperCase", toUpperCase),
  ("toLowerCase", toLowerCase), ("trim", trim), ("contains", contains),
  ("startsWith", startsWith), ("endsWith", endsWith), ("split", split)]

/-- Calls a method, under the name that faults report, on a text; new lists go on `account`. -/
def call (account : Nat) (receiver : String) (method : TextMethod) (name : String)
    (args : List Value) : StoreM Value := do
  let chars := receiver.toList
  match method with
  | length => do
    require name 0 args
    return .ofLength chars.length
  | isEmpty => do
    require name 0 args
    return .bool chars.isEmpty
  | toUpperCase => do
    require name 0 args
    return .str (String.ofList (Text.upper chars))
  | toLowerCase => do
    require name 0 args
    return .str (String.ofList (Text.lower chars))
  | trim => do
    require name 0 args
    return .str (String.ofList (Text.trim chars))
  | contains => do
    require name 1 args
    return .bool (Text.occurs (← text args 0).toList chars)
  | startsWith => do
    require name 1 args
    return .bool ((← text args 0).toList.isPrefixOf chars)
  | endsWith => do
    require name 1 args
    return .bool ((← text args 0).toList.isSuffixOf chars)
  | split => do
    require name 1 args
    let pieces := Text.split (← text args 0).toList chars
    return .list (← Lists.create account (pieces.map fun piece => .str (String.ofList piece)))

end TextMethod

end MeteredScript
