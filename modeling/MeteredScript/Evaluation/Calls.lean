import MeteredScript.Evaluation.ListMethods
import MeteredScript.Evaluation.MapMethods
import MeteredScript.Evaluation.SetMethods
import MeteredScript.Evaluation.TextMethods
import MeteredScript.Host

/-!
References to native types and calls of members. The sandbox decides before anything is looked up:
a type that is denied is refused whether the host registered it or not, and so is a member.
-/

namespace MeteredScript

def SandboxFault.toFault : SandboxFault → Fault
  | classNotAllowed name | invalidName name => .classNotAllowed name
  | memberNotAllowed owner member => .memberNotAllowed owner member

namespace Environment

/-- The path that a type name stands for: an imported short name, or else a full name. -/
def typePath (e : Environment) (name : Name) : Except Fault ClassPath :=
  match e.configuration.imports.lookup name with
  | some path =>
    if e.sandbox.allows path then .ok path else .error (.classNotAllowed (path.dotted e.names))
  | none =>
    let text := e.names.lookup name
    match e.sandbox.checkClass e.names text with
    | .ok (some path) => .ok path
    | .ok none => .error (.nameNotFound text)
    | .error fault => .error fault.toFault

def resolveType (e : Environment) (name : Name) : Except Fault Value :=
  match e.typePath name with
  | .error fault => .error fault
  | .ok path =>
    match e.configuration.native? path with
    | some c => .ok (.native c.type)
    | none => .error (.nameNotFound (path.dotted e.names))

/-- Calls a method of a native type. -/
def callNative (e : Environment) (t : NativeType) (method : Name) (args : List Value) :
    Act Value :=
  match (e.configuration.native? t.path).bind (·.methods.lookup method) with
  | some f => f args
  | none => throw (.noSuchMethod (e.names.lookup method) t.name)

/-- Calls a member of a value that is no native type. -/
def callBuiltIn (account : Nat) (receiver : Value) (name : String) (args : List Value) :
    StoreM Value :=
  let missing : StoreM Value := throw (.noSuchMethod name receiver.typeName)
  match receiver with
  | .list l => ((ListMethod.byName.lookup name).map (·.call l name args)).getD missing
  | .map m => ((MapMethod.byName.lookup name).map (·.call m name args)).getD missing
  | .set h => ((SetMethod.byName.lookup name).map (·.call h name args)).getD missing
  | .str s => ((TextMethod.byName.lookup name).map (·.call account s name args)).getD missing
  | _ => missing

/-- The native type that owns the members of a value, if it is one. -/
def owner? : Value → Option ClassPath
  | .native t => some t.path
  | _ => none

/-- Calls a member of a value. -/
def call (e : Environment) (receiver : Value) (method : Name) (args : List Value) : Act Value := do
  let name := e.names.lookup method
  match e.sandbox.checkMember e.names (owner? receiver) name with
  | .error fault => throw fault.toFault
  | .ok () =>
    match receiver with
    | .native t => e.callNative t method args
    | _ => do
      let account := (← get).context.account
      Act.onStore (callBuiltIn account receiver name args)

end Environment

end MeteredScript
