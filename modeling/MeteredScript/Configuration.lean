import MeteredScript.Sandbox
import MeteredScript.Scope

/-!
What programs are compiled against: a sandbox, short names of imported types, and the native types
that the host registered with their methods. A short name stands for one type only.
-/

namespace MeteredScript

/-- A native function: it gets its arguments and works on the machine of the evaluation. -/
abbrev Native := List Value → Act Value

structure NativeClass where
  type : NativeType
  methods : List (Name × Native)

inductive ConfigurationFault where
  | sandbox (fault : SandboxFault)
  | conflictingImport (short first second : String)
  | foreignInterner
deriving DecidableEq, Repr

def ConfigurationFault.message : ConfigurationFault → String
  | sandbox fault => fault.message
  | conflictingImport short first second =>
    s!"import `{short}` is bound to both `{first}` and `{second}`"
  | foreignInterner => "the sandbox was built on a different interner than the configuration"

/-- A refusal of the sandbox keeps its own kind. -/
def ConfigurationFault.kindName : ConfigurationFault → String
  | sandbox fault => fault.kindName
  | conflictingImport .. => "ConflictingImport"
  | foreignInterner => "ForeignInterner"

structure Configuration where
  /-- The position of the sandbox in the host. -/
  sandbox : Nat
  imports : List (Name × ClassPath)
  natives : List NativeClass
  strongTyping : Bool

instance : Inhabited Configuration := ⟨⟨0, [], [], false⟩⟩

namespace Configuration

/-- Building a configuration interns names; what was interned before a fault stays so. -/
abbrev ConfigureM := ExceptT ConfigurationFault (StateM Interner)

/-- Interns names on the way. -/
def onNames {α : Type} (x : StateM Interner α) : ConfigureM α := ExceptT.lift x

/-- The path of a dotted name, whose segments are interned. -/
def readPath (name : String) : ConfigureM ClassPath := do
  match ← onNames (ClassPath.intern name) with
  | some path => return path
  | none => throw (.sandbox (.invalidName name))

/-- The last segment of a dotted name. -/
def shortName (name : String) : String := (ClassPath.words name).getLastD name

/-- Binds short names to types in order. -/
def bindImports (imports : List (String × String)) : ConfigureM (List (Name × ClassPath)) :=
  imports.foldlM (fun bound (short, name) => do
    let path ← readPath name
    let n ← onNames (Interner.intern short)
    match bound.lookup n with
    | some first =>
      if first = path then return bound
      else throw (.conflictingImport short (first.dotted (← get)) name)
    | none => return (n, path) :: bound) []

private def setMethod (method : Name) (f : Native) (methods : List (Name × Native)) :
    List (Name × Native) :=
  (method, f) :: methods.filter (·.1 ≠ method)

/-- Adds a method to a type. The type keeps the name that it was first registered under. -/
def define (path : ClassPath) (name : String) (method : Name) (f : Native) :
    List NativeClass → List NativeClass
  | [] => [⟨⟨path, name⟩, [(method, f)]⟩]
  | c :: rest =>
    if c.type.path = path then { c with methods := setMethod method f c.methods } :: rest
    else c :: define path name method f rest

/-- Registers methods of native types in order. -/
def register (natives : List (String × String × Native)) : ConfigureM (List NativeClass) :=
  natives.foldlM (fun classes (name, method, f) => do
    let path ← readPath name
    let n ← onNames (Interner.intern method)
    return define path name n f classes) []

def native? (c : Configuration) (path : ClassPath) : Option NativeClass :=
  c.natives.find? (·.type.path = path)

end Configuration

end MeteredScript
