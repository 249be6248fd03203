/-!
Names stand for texts. A name is a place in a table of texts that is divided into shards; `raw`
packs shard and slot into one number.
-/

namespace MeteredScript

structure Name where
  shard : Fin 16
  slot : Nat
deriving DecidableEq, Inhabited, Repr

namespace Name

/-- The name of the empty text. -/
def empty : Name := ⟨0, 0⟩

/-- The number of slots that a packed name can tell apart in one shard. -/
def slotsPerShard : Nat := 0x10000000

def raw (n : Name) : Nat := n.shard * slotsPerShard + n.slot

def ofRaw (raw : Nat) : Name := ⟨Fin.ofNat 16 (raw / slotsPerShard), raw % slotsPerShard⟩

theorem ofRaw_raw {n : Name} (h : n.slot < slotsPerShard) : ofRaw n.raw = n := by
  obtain ⟨shard, slot⟩ := n
  simp only [raw, ofRaw, slotsPerShard] at h ⊢
  congr 1
  · apply Fin.ext; simp only [Fin.val_ofNat]; omega
  · omega

theorem raw_lt {n : Name} (h : n.slot < slotsPerShard) : n.raw < 0x100000000 := by
  have hshard := n.shard.isLt
  unfold raw
  unfold slotsPerShard at h ⊢
  omega

def render (n : Name) : String := s!"Name({n.shard}:{n.slot})"

end Name

end MeteredScript
