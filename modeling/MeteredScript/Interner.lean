import MeteredScript.Name
import MeteredScript.Text.Hash

/-!
The table of texts behind names. Each text lives in one shard, chosen by its hash, at the slot it
got when it was first interned; nothing is ever moved or removed, so a name keeps its text. A shard
finds its slots by text in an index that is kept beside them, and the table counts its texts.
-/

namespace MeteredScript

/-- One part of a table: the texts by slot, and the slots back by text. Of two entries for one text
in the index, the first one counts. -/
structure Shard where
  slots : List String
  index : List (String × Nat)

namespace Shard

def empty : Shard := ⟨[], []⟩

/-- The slot of a text, as the index has it. -/
def find (s : Shard) (text : String) : Option Nat := s.index.lookup text

/-- Gives a text the next slot. -/
def insert (s : Shard) (text : String) : Shard :=
  ⟨s.slots ++ [text], (text, s.slots.length) :: s.index⟩

end Shard

structure Interner where
  hash : String → Fin 16
  shards : Vector Shard 16
  /-- How many texts were added. -/
  count : Nat

namespace Interner

/-- A shard had no slot left for another text. -/
structure Overflow where
  shard : Fin 16
  count : Nat
deriving DecidableEq, Repr

/-- The shard of a text. The empty text is in that of its name, whatever its hash. -/
def place (t : Interner) (text : String) : Fin 16 :=
  if text = "" then Name.empty.shard else t.hash text

def shard (t : Interner) (i : Fin 16) : Shard := t.shards[i]

/-- Shard 0 starts with the empty text, whose name is `Name.empty`. -/
def bare (hash : String → Fin 16) : Interner :=
  ⟨hash, (Vector.replicate 16 .empty).set 0 (Shard.empty.insert ""), 1⟩

def lookup (t : Interner) (n : Name) : String := ((t.shard n.shard).slots[n.slot]?).getD ""

/-- The name of a text that was interned before. -/
def get? (t : Interner) (text : String) : Option Name :=
  ((t.shard (t.place text)).find text).map (⟨t.place text, ·⟩)

/-- Adds a text to its shard. -/
def push (t : Interner) (text : String) : Interner :=
  { t with
    shards := t.shards.set (t.place text) ((t.shard (t.place text)).insert text)
    count := t.count + 1 }

/-- The name of a text, which is added if it is new. -/
def intern (text : String) : StateM Interner Name := fun t =>
  match t.get? text with
  | some n => (n, t)
  | none => (⟨t.place text, (t.shard (t.place text)).slots.length⟩, t.push text)

/-- The name of a text, refused when the text is new and its shard is full. -/
def tryIntern (text : String) (t : Interner) : Except Overflow (Name × Interner) :=
  if t.get? text = none ∧ Name.slotsPerShard ≤ (t.shard (t.place text)).slots.length then
    .error ⟨t.place text, (t.shard (t.place text)).slots.length⟩
  else .ok (intern text t)

/-- The number of texts in the table, the empty one included. -/
def size (t : Interner) : Nat := t.count

/-- Words that every table knows from the start: those of the language, the members closed on every
receiver, and the methods of containers. -/
def wellKnown : List String := [
  "do", "while", "foreach", "if", "else", "return", "break", "this", "null", "true", "false",
  "getClass", "getClassLoader", "getModule",
  "size", "length", "isEmpty", "get", "set", "put", "remove", "contains", "keys", "values",
  "push", "pop", "shift", "unshift", "slice", "splice", "sort", "toSorted", "reverse",
  "toReversed", "fill", "with", "join", "invert", "toUnmodifiable"]

/-- The shard that the hash of a text chooses. -/
def spread (text : String) : Fin 16 :=
  ⟨(Text.hash text).toNat % 16, Nat.mod_lt _ (by decide)⟩

def withWellKnown (hash : String → Fin 16) : Interner :=
  ((wellKnown.mapM intern).run (bare hash)).2

/-- A fresh table. -/
def fresh : Interner := withWellKnown spread

end Interner

end MeteredScript
