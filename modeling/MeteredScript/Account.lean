import MeteredScript.Value

/-!
Accounts of containers. An account gives containers their identities and is told of every value
that is added to or removed from one of them; its tariff prices each such report. It keeps all
reports in a journal, and a metered account also keeps the total of what is held. Costs and totals
wrap at 64 bits.
-/

namespace MeteredScript

/-- Where in a container a value is added or removed. -/
inductive Slot where
  | index (i : Nat)
  | key (k : Key)
  | element
deriving DecidableEq, Repr

inductive Change where
  | added | removed
deriving DecidableEq, Repr

/-- A value was added to or removed from a slot of a container. -/
structure Report where
  change : Change
  container : Nat
  slot : Slot
  value : Value
deriving DecidableEq, Repr

/-- The size of a text in bytes. -/
def textSize (s : String) : Int64 := boundedLength s.utf8ByteSize

def Key.size : Key → Int64
  | .null => 0
  | .bool _ => 1
  | .int _ | .float _ => 8
  | .str s => textSize s

/-- The size of the key that a slot keeps besides the value. -/
def Slot.keySize : Slot → Int64
  | .key k => k.size
  | .index _ | .element => 0

inductive Entry where
  | priced (report : Report) (delta : Int64)
  | viewed (view container : Nat)
deriving DecidableEq, Repr

/-- Prices a report, given what was reported to the account before and the present size of the
reported value. No two reports of an account find the same journal, so whatever prices were asked in
a run, there is a tariff that asks them. -/
structure Tariff where
  price : Array Entry → Report → Int64 → Int64

namespace Tariff

/-- Everything is free. -/
def free : Tariff := ⟨fun _ _ _ => 0⟩

/-- The key and the value cost their sizes, at most the largest 64-bit number. -/
def bySize : Tariff :=
  ⟨fun _ r size => Int64.ofInt (min (r.slot.keySize.toInt + size.toInt) Int64.maxValue.toInt)⟩

/-- Every value costs one more than its size and that of its key. -/
def itemised : Tariff := ⟨fun _ r size => 1 + r.slot.keySize + size⟩

end Tariff

structure Account where
  tariff : Tariff
  metered : Bool
  /-- The number of identities given out, which is the last of them. -/
  issued : Nat
  total : Int64
  journal : Array Entry

namespace Account

def opened (tariff : Tariff) (metered : Bool) : Account := ⟨tariff, metered, 0, 0, #[]⟩

def usage? (a : Account) : Option Int64 := if a.metered then some a.total else none

/-- The effect of a priced change on a sum of what is held. -/
def Change.apply (change : Change) (delta sum : Int64) : Int64 :=
  match change with
  | .added => sum + delta
  | .removed => sum - delta

def enter (a : Account) (r : Report) (delta : Int64) : Account :=
  { a with
    total := Change.apply r.change delta a.total
    journal := a.journal.push (.priced r delta) }

def issue (a : Account) : Account := { a with issued := a.issued + 1 }

/-- Issues an identity for a read-only view of a container. -/
def issueView (a : Account) (container : Nat) : Account :=
  { a with issued := a.issued + 1, journal := a.journal.push (.viewed (a.issued + 1) container) }

/-- The total, for logs. -/
def report (a : Account) : String :=
  let total := a.total.toInt
  s!"QuotaAccounting \x7b total: {total}, .. \x7d"

end Account

end MeteredScript
