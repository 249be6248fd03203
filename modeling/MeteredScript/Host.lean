import MeteredScript.Configuration

/-!
A host: tables of names, sandboxes built on them, and configurations. Table 0 is the one that
configurations use; a sandbox built on another table cannot be part of a configuration. Sandboxes
in use can be extended, which every configuration with them sees at once.
-/

namespace MeteredScript

structure HostedSandbox where
  /-- The position of the table of names. -/
  table : Nat
  sandbox : Sandbox
deriving Inhabited

structure Host where
  tables : Array Interner
  sandboxes : Array HostedSandbox
  configurations : Array Configuration

/-- The parts of a host that the evaluation of a program reads. -/
structure Environment where
  names : Interner
  sandbox : Sandbox
  configuration : Configuration

namespace Host

abbrev HostM := StateM Host

def names (h : Host) (table : Nat) : Interner := h.tables.getD table .fresh

def sandbox (h : Host) (i : Nat) : HostedSandbox := h.sandboxes.getD i default

def configuration (h : Host) (i : Nat) : Configuration := h.configurations.getD i default

/-- Runs an operation on one table of names. -/
def onNames {α : Type} (table : Nat) (x : StateM Interner α) : HostM α := fun h =>
  let (result, names) := x.run (h.names table)
  (result, { h with tables := h.tables.setIfInBounds table names })

private def addSandbox (s : HostedSandbox) : HostM Nat :=
  modifyGet fun h => (h.sandboxes.size, { h with sandboxes := h.sandboxes.push s })

private def addConfiguration (c : Configuration) : HostM Nat :=
  modifyGet fun h => (h.configurations.size, { h with configurations := h.configurations.push c })

/-- A table of its own for a sandbox. -/
def addTable : HostM Nat :=
  modifyGet fun h => (h.tables.size, { h with tables := h.tables.push .fresh })

def denyAll : HostM Nat := do
  let s ← onNames 0 Sandbox.denyAll
  addSandbox ⟨0, s⟩

def buildSandbox (table : Nat) (rules : List (Sandbox.Rule × String)) :
    HostM (Except SandboxFault Nat) := do
  match ← onNames table (Sandbox.build rules) with
  | .ok s => return .ok (← addSandbox ⟨table, s⟩)
  | .error fault => return .error fault

/-- Extends a sandbox in use. -/
def extendSandbox (i : Nat) (rule : Sandbox.Rule) (name : String) :
    HostM (Except SandboxFault Unit) := do
  let current := (← get).sandbox i
  match ← onNames current.table (current.sandbox.extend rule name) with
  | .ok s =>
    modify fun h => { h with sandboxes := h.sandboxes.setIfInBounds i ⟨current.table, s⟩ }
    return .ok ()
  | .error fault => return .error fault

/-- Builds a configuration on table 0. Without a sandbox of its own it gets one that denies all. -/
def configure (sandbox : Option Nat) (imports : List (String × String))
    (natives : List (String × String × Native)) (strongTyping : Bool) :
    HostM (Except ConfigurationFault Nat) := do
  let h ← get
  if sandbox.any fun i => (h.sandbox i).table ≠ 0 then return .error .foreignInterner
  let bound ← onNames 0 <| ExceptT.run do
    let imports ← Configuration.bindImports imports
    let natives ← Configuration.register natives
    return (imports, natives)
  match bound with
  | .error fault => return .error fault
  | .ok (imports, natives) =>
    let sandbox ← match sandbox with
      | some i => pure i
      | none => denyAll
    return .ok (← addConfiguration ⟨sandbox, imports, natives, strongTyping⟩)

/-- A host with one sandbox, which denies all, and one configuration, which imports nothing. -/
def fresh : Host :=
  let start : Host := ⟨#[.fresh], #[], #[]⟩
  (StateT.run (m := Id) (do
    let s ← denyAll
    let _ ← addConfiguration ⟨s, [], [], false⟩) start).2

def environment (h : Host) (configuration : Nat) : Environment :=
  let c := h.configuration configuration
  ⟨h.names 0, (h.sandbox c.sandbox).sandbox, c⟩

/-- A configuration, for logs. -/
def reportConfiguration (h : Host) (i : Nat) : String :=
  let c := h.configuration i
  let sandbox := (h.sandbox c.sandbox).sandbox.report
  let imports := c.imports.length
  let natives := ", ".intercalate (c.natives.map fun n => Text.quoted n.type.name)
  let strong := c.strongTyping
  s!"ParserConfiguration \x7b sandbox: {sandbox}, imports: {imports}, natives: [{natives}], " ++
    s!"strong_typing: {strong}, .. \x7d"

end Host

end MeteredScript
