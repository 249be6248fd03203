import MeteredScript.Text.Quoted

/-!
Causes for which an evaluation or an operation on a container fails, and their wording.
-/

namespace MeteredScript

inductive Fault where
  | nameNotFound (name : String)
  | classNotAllowed (name : String)
  | memberNotAllowed (owner member : String)
  | typeMismatch (expected got : String)
  | noSuchMethod (method typeName : String)
  | arityMismatch (name : String) (expected got : Nat)
  | unsupported (operation : String)
  | indexOutOfRange (index : Int) (length : Nat)
  | divisionByZero
  | integerOverflow (operation : String)
  | executionCancelled
  | deadlineExceeded
  | memoryLimitExceeded (used limit : Int)
  | iterationLimitExceeded (limit : Nat)
  | custom (message : String)
deriving DecidableEq, Repr

namespace Fault

def message : Fault → String
  | nameNotFound name => s!"unresolvable name: {name}"
  | classNotAllowed name => s!"class not allowed: {name}"
  | memberNotAllowed owner member => s!"member `{member}` of `{owner}` is not allowed"
  | typeMismatch expected got => s!"type mismatch: expected {expected}, found {got}"
  | noSuchMethod method typeName => s!"no method `{method}` on {typeName}"
  | arityMismatch name expected got => s!"`{name}` expects {expected} arguments, got {got}"
  | unsupported operation => s!"unsupported operation on read-only view: {operation}"
  | indexOutOfRange index length => s!"index {index} out of range for length {length}"
  | divisionByZero => "division by zero"
  | integerOverflow operation => s!"integer overflow in {operation}"
  | executionCancelled => "execution cancelled"
  | deadlineExceeded => "execution deadline exceeded"
  | memoryLimitExceeded used limit => s!"memory limit exceeded: {used} of {limit}"
  | iterationLimitExceeded limit => s!"iteration limit of {limit} exceeded"
  | custom message => message

/-- Faults raised because an evaluation was stopped, whatever it computed. -/
def isLiveness : Fault → Bool
  | executionCancelled | deadlineExceeded | memoryLimitExceeded .. | iterationLimitExceeded .. =>
    true
  | _ => false

def kindName : Fault → String
  | nameNotFound .. => "NameNotFound"
  | classNotAllowed .. => "ClassNotAllowed"
  | memberNotAllowed .. => "MemberNotAllowed"
  | typeMismatch .. => "TypeMismatch"
  | noSuchMethod .. => "NoSuchMethod"
  | arityMismatch .. => "ArityMismatch"
  | unsupported .. => "Unsupported"
  | indexOutOfRange .. => "IndexOutOfRange"
  | divisionByZero => "DivisionByZero"
  | integerOverflow .. => "IntegerOverflow"
  | executionCancelled => "ExecutionCancelled"
  | deadlineExceeded => "DeadlineExceeded"
  | memoryLimitExceeded .. => "MemoryLimitExceeded"
  | iterationLimitExceeded .. => "IterationLimitExceeded"
  | custom .. => "Custom"

/-- The particulars of a cause, each with its label. -/
def particulars : Fault → List (String × String)
  | nameNotFound name | classNotAllowed name => [("name", Text.quoted name)]
  | memberNotAllowed owner member => [("owner", Text.quoted owner), ("member", Text.quoted member)]
  | typeMismatch expected got => [("expected", Text.quoted expected), ("got", Text.quoted got)]
  | noSuchMethod method typeName =>
    [("method", Text.quoted method), ("type_name", Text.quoted typeName)]
  | arityMismatch name expected got =>
    [("name", Text.quoted name), ("expected", toString expected), ("got", toString got)]
  | unsupported operation | integerOverflow operation => [("operation", Text.quoted operation)]
  | indexOutOfRange index length => [("index", toString index), ("len", toString length)]
  | memoryLimitExceeded used limit => [("used", toString used), ("limit", toString limit)]
  | iterationLimitExceeded limit => [("limit", toString limit)]
  | custom message => [("message", Text.quoted message)]
  | divisionByZero | executionCancelled | deadlineExceeded => []

/-- The cause with its particulars and its message, for logs. -/
def report (fault : Fault) : String :=
  let inner := ", ".intercalate (fault.particulars.map fun (label, text) => label ++ ": " ++ text)
  let kind := if inner.isEmpty then fault.kindName else s!"{fault.kindName} \x7b {inner} \x7d"
  s!"EvalError \x7b kind: {kind}, message: {Text.quoted fault.message} \x7d"

end Fault

end MeteredScript
