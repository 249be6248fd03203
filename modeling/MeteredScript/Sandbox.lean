import MeteredScript.ClassPath

/-!
Which native types and members a script may reach. An explicitly allowed type is allowed; else a
forbidden package denies, then an allowed package allows, and all else is denied. Two fixed lists
come before these rules: type names that are never reached, and members that are never called.
-/

namespace MeteredScript

inductive SandboxFault where
  | classNotAllowed (name : String)
  | memberNotAllowed (owner member : String)
  | invalidName (name : String)
deriving DecidableEq, Repr

def SandboxFault.message : SandboxFault → String
  | classNotAllowed name => s!"class not allowed: {name}"
  | memberNotAllowed owner member => s!"member `{member}` of `{owner}` is not allowed"
  | invalidName name => s!"malformed class or package name: `{name}`"

def SandboxFault.kindName : SandboxFault → String
  | classNotAllowed .. => "ClassNotAllowed"
  | memberNotAllowed .. => "MemberNotAllowed"
  | invalidName .. => "InvalidName"

/-- On which receivers a closed member is refused. -/
inductive Closure where
  | everyReceiver | nativeTypes
deriving DecidableEq, Repr

structure Sandbox where
  allowedClasses : List ClassPath
  allowedPackages : List ClassPath
  forbiddenPackages : List ClassPath
  closedTypes : List Name
  closedMembers : List (Name × Closure)
deriving DecidableEq, Inhabited, Repr

namespace Sandbox

/-- Simple names of types that no rule can open. -/
def closedTypeWords : List String := [
  "System", "Runtime", "Class", "ClassLoader", "Thread", "Compiler", "ThreadLocal",
  "SecurityManager", "Array", "StringBuffer", "StringBuilder", "Module"]

/-- Members that no rule can open. -/
def closedMemberWords : List (String × Closure) := [
  ("getClass", .everyReceiver), ("getClassLoader", .nativeTypes), ("getModule", .nativeTypes)]

inductive Rule where
  | allowClass | allowPackage | forbidPackage
deriving DecidableEq, Repr

/-- Adds a path to the set that a rule belongs to. -/
def add (s : Sandbox) (rule : Rule) (path : ClassPath) : Sandbox :=
  match rule with
  | .allowClass => { s with allowedClasses := s.allowedClasses.insert path }
  | .allowPackage => { s with allowedPackages := s.allowedPackages.insert path }
  | .forbidPackage => { s with forbiddenPackages := s.forbiddenPackages.insert path }

def internMember (member : String × Closure) : StateM Interner (Name × Closure) := do
  return (← Interner.intern member.1, member.2)

/-- Interns the two fixed lists into a sandbox. -/
def close (s : Sandbox) : StateM Interner Sandbox := do
  let closedTypes ← closedTypeWords.mapM Interner.intern
  let closedMembers ← closedMemberWords.mapM internMember
  return { s with closedTypes, closedMembers }

/-- The sandbox without rules. -/
def denyAll : StateM Interner Sandbox := close ⟨[], [], [], [], []⟩

/-- A sandbox that is being drafted, with the first malformed name it was given. -/
abbrev Draft := Sandbox × Option String

/-- The draft that starts without rules. -/
def Draft.empty : Draft := (⟨[], [], [], [], []⟩, none)

/-- Reads one rule. A malformed name changes no rule; the first one is remembered. -/
def Draft.read (d : Draft) (rule : Rule) (name : String) : StateM Interner Draft := do
  match ← ClassPath.intern name with
  | some path => return (d.1.add rule path, d.2)
  | none => return (d.1, d.2 <|> some name)

/-- Reads rules in order. -/
def collect (rules : List (Rule × String)) : StateM Interner Draft :=
  rules.foldlM (fun d (rule, name) => d.read rule name) .empty

/-- Ends a draft: the sandbox, refused if one of the names was malformed. -/
def Draft.finish (d : Draft) : StateM Interner (Except SandboxFault Sandbox) :=
  match d with
  | (_, some name) => return .error (.invalidName name)
  | (s, none) => return .ok (← s.close)

/-- The sandbox of a list of rules. -/
def build (rules : List (Rule × String)) : StateM Interner (Except SandboxFault Sandbox) := do
  (← collect rules).finish

/-- Extends the allowed types or packages of a sandbox in use. -/
def extend (s : Sandbox) (rule : Rule) (name : String) :
    StateM Interner (Except SandboxFault Sandbox) := do
  match ← ClassPath.intern name with
  | some path => return .ok (s.add rule path)
  | none => return .error (.invalidName name)

/-! ## Decisions -/

/-- The decision on the segments of a name, of which some may be unknown to the table. -/
def decides (s : Sandbox) (segments : List (Option Name)) : Bool :=
  let known := (segments.takeWhile Option.isSome).filterMap id
  let starts := (List.range known.length).map fun n => ClassPath.mk (known.take (n + 1))
  match segments.getLast? with
  | none => false
  | some last =>
    if last.any (· ∈ s.closedTypes) then false
    else if known.length = segments.length ∧ ⟨known⟩ ∈ s.allowedClasses then true
    else if starts.any (· ∈ s.forbiddenPackages) then false
    else starts.any (· ∈ s.allowedPackages)

def allowsName (s : Sandbox) (names : Interner) (name : String) : Bool :=
  match ClassPath.query names name with
  | some segments => s.decides segments
  | none => false

def allows (s : Sandbox) (path : ClassPath) : Bool := s.decides (path.segments.map some)

/-- Whether the last segment of a type name alone leaves it open. -/
def allowsLiteral (word : String) : Bool := word ∉ closedTypeWords

/-- The path of an allowed name; `none` if it is allowed but not known to the table. -/
def checkClass (s : Sandbox) (names : Interner) (name : String) :
    Except SandboxFault (Option ClassPath) :=
  match ClassPath.query names name with
  | none => .error (.invalidName name)
  | some segments =>
    if s.decides segments then
      .ok (if segments.all Option.isSome then some ⟨segments.filterMap id⟩ else none)
    else .error (.classNotAllowed name)

/-- Whether a member may be called on a value, or on a native type if there is an owner. -/
def allowsMember (s : Sandbox) (names : Interner) (owner : Option ClassPath) (member : String) :
    Bool :=
  let closed := match (names.get? member).bind (List.lookup · s.closedMembers) with
    | some .everyReceiver => true
    | some .nativeTypes => owner.isSome
    | none => false
  !closed && !(owner.bind ClassPath.simpleName).any (· ∈ s.closedTypes)

def checkMember (s : Sandbox) (names : Interner) (owner : Option ClassPath) (member : String) :
    Except SandboxFault Unit :=
  if s.allowsMember names owner member then .ok ()
  else .error (.memberNotAllowed ((owner.map (ClassPath.dotted names)).getD "Object") member)

/-- The sizes of the rule sets, for logs. -/
def report (s : Sandbox) : String :=
  let classes := s.allowedClasses.length
  let packages := s.allowedPackages.length
  let forbidden := s.forbiddenPackages.length
  s!"Sandbox \x7b allowed_classes: {classes}, allowed_packages: {packages}, " ++
    s!"forbidden_packages: {forbidden}, .. \x7d"

end Sandbox

end MeteredScript
