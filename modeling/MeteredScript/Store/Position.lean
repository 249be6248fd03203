import MeteredScript.Fault

/-!
Positions in a sequence. Bounds of a range count from the end when negative and are clamped to the
sequence; the position of one element has to exist.
-/

namespace MeteredScript.Position

/-- The largest length that positions can address. -/
def limit : Nat := 0x7fffffffffffffff

/-- A bound of a range, clamped to `0 … length`; a negative one counts from the end. -/
def clamp (index : Int) (length : Nat) : Nat :=
  let reach : Nat := min length limit
  if index < -reach then 0
  else if index < 0 then (index + reach).toNat
  else min index.toNat length

/-- How many of the `available` elements a count takes. -/
def clampCount (count : Int) (available : Nat) : Nat := min count.toNat available

/-- The position of an existing element. -/
def ofElement (index : Int) (length : Nat) : Except Fault Nat :=
  if 0 ≤ index ∧ index < length then .ok index.toNat else .error (.indexOutOfRange index length)

/-- A position between elements, or at one of the two ends. -/
def ofGap (index : Int) (length : Nat) : Except Fault Nat :=
  if 0 ≤ index ∧ index ≤ length then .ok index.toNat else .error (.indexOutOfRange index length)

theorem clamp_le (index : Int) (length : Nat) : clamp index length ≤ length := by
  simp only [clamp]; split
  · omega
  · split <;> omega

theorem clamp_of_le {index length : Nat} (h : index ≤ length) : clamp index length = index := by
  simp only [clamp]; split
  · omega
  · split <;> omega

end MeteredScript.Position
