import Mathlib.Algebra.Order.Ring.Int
import MeteredScript.Number.Binary64

/-!
# Rounding keeps the order

The number nearest to a larger integer is never less than that nearest to a smaller one, but it may
be the same. Integers of at most 2⁵³ are numbers themselves, so that no two of them become one.
-/

namespace MeteredScript.Binary64

/-! ## Quotients -/

section Quotients

variable {n m d : Nat}

theorem le_divideToEven (n d : Nat) : n / d ≤ divideToEven n d := by
  unfold divideToEven
  dsimp only
  split
  · exact Nat.le_refl _
  · split <;> omega

theorem divideToEven_le (n d : Nat) : divideToEven n d ≤ n / d + 1 := by
  unfold divideToEven
  dsimp only
  split
  · omega
  · split <;> omega

theorem divideToEven_mono (h : n ≤ m) (d : Nat) : divideToEven n d ≤ divideToEven m d := by
  rcases Nat.lt_or_eq_of_le (Nat.div_le_div_right (c := d) h) with hlt | heq
  · have hn := divideToEven_le n d
    have hm := le_divideToEven m d
    omega
  · have hn := Nat.div_add_mod n d
    have hm := Nat.div_add_mod m d
    rw [heq] at hn
    simp only [divideToEven, heq]
    grind

theorem divideToEven_mul (n : Nat) (hd : 0 < d) : divideToEven (n * d) d = n := by
  unfold divideToEven
  dsimp only
  rw [Nat.mul_div_cancel n hd, Nat.mul_mod_left, if_pos (by omega)]

end Quotients

/-! ## The bits of the nearest number -/

/-- How many bits of as many units are rounded off. -/
def exponentOf (units : Nat) : Nat := if units < 2 * hiddenBit then 0 else units.log2 - 52

/-- The bits of the number nearest to as many units, if there were no infinity. -/
def nearestBits (units : Nat) : Nat :=
  divideToEven units (2 ^ exponentOf units) + exponentOf units * hiddenBit

theorem ofUnits_one (negative : Bool) (units : Nat) :
    ofUnits negative units 1 = ofMagnitude negative (min (nearestBits units) infinityBits) := by
  simp only [ofUnits, nearestBits, exponentOf, Nat.div_one, Nat.one_shiftLeft]

section Bits

variable {n m : Nat}

theorem hiddenBit_eq : hiddenBit = 2 ^ 52 := by decide

theorem lt_of_exponentOf (n : Nat) : n < 2 ^ (exponentOf n + 53) := by
  unfold exponentOf
  split
  · next h => rwa [hiddenBit_eq] at h
  · next h =>
    refine Nat.lt_of_lt_of_le Nat.lt_log2_self (Nat.pow_le_pow_right (by decide) ?_)
    omega

theorem le_of_exponentOf (h : exponentOf n ≠ 0) : 2 ^ (exponentOf n + 52) ≤ n := by
  unfold exponentOf at h ⊢
  split
  · next hn => exact absurd (if_pos hn) h
  · next hn =>
    rw [if_neg hn] at h
    have hpos : n ≠ 0 := by rintro rfl; exact hn (by decide)
    rw [Nat.sub_add_cancel (by omega)]
    exact Nat.log2_self_le hpos

theorem exponentOf_le {e : Nat} (h : n < 2 ^ (e + 53)) : exponentOf n ≤ e := by
  by_cases hn : exponentOf n = 0
  · omega
  · have hlt := Nat.lt_of_le_of_lt (le_of_exponentOf hn) h
    have := (Nat.pow_lt_pow_iff_right (by decide)).mp hlt
    omega

theorem exponentOf_mono (h : n ≤ m) : exponentOf n ≤ exponentOf m :=
  exponentOf_le (Nat.lt_of_le_of_lt h (lt_of_exponentOf m))

theorem quotient_lt (n : Nat) : n / 2 ^ exponentOf n < 2 * hiddenBit := by
  have hbit : 2 * hiddenBit = 2 ^ 53 := by decide
  have hlt := lt_of_exponentOf n
  rw [Nat.add_comm, Nat.pow_add, Nat.mul_comm] at hlt
  exact hbit ▸ Nat.div_lt_of_lt_mul hlt

theorem le_quotient (h : exponentOf n ≠ 0) : hiddenBit ≤ n / 2 ^ exponentOf n := by
  have hle := le_of_exponentOf h
  rw [Nat.add_comm, Nat.pow_add, ← hiddenBit_eq] at hle
  exact (Nat.le_div_iff_mul_le (Nat.two_pow_pos _)).mpr hle

theorem significand_le (n : Nat) : divideToEven n (2 ^ exponentOf n) ≤ 2 * hiddenBit :=
  Nat.le_trans (divideToEven_le ..) (quotient_lt n)

theorem le_significand (h : exponentOf n ≠ 0) : hiddenBit ≤ divideToEven n (2 ^ exponentOf n) :=
  Nat.le_trans (le_quotient h) (le_divideToEven ..)

/-- A larger exponent makes up for a smaller significand. -/
theorem significand_add_le {q r e f : Nat} (hq : q ≤ 2 * hiddenBit) (hr : hiddenBit ≤ r)
    (h : e < f) : q + e * hiddenBit ≤ r + f * hiddenBit := by
  have hstep : (e + 1) * hiddenBit ≤ f * hiddenBit := Nat.mul_le_mul_right hiddenBit h
  rw [Nat.add_mul] at hstep
  omega

theorem nearestBits_mono (h : n ≤ m) : nearestBits n ≤ nearestBits m := by
  unfold nearestBits
  rcases Nat.lt_or_eq_of_le (exponentOf_mono h) with hlt | heq
  · exact significand_add_le (significand_le n) (le_significand (by omega)) hlt
  · rw [heq]
    exact Nat.add_le_add_right (divideToEven_mono h _) _

end Bits

/-! ## Numbers that need no rounding -/

section Exact

variable {n m : Nat}

/-- Only zeros are rounded off. -/
def IsExact (units : Nat) : Prop := 2 ^ exponentOf units ∣ units

theorem nearestBits_of_isExact (h : IsExact n) :
    nearestBits n = n / 2 ^ exponentOf n + exponentOf n * hiddenBit := by
  have hmul := divideToEven_mul (n / 2 ^ exponentOf n) (Nat.two_pow_pos (exponentOf n))
  rw [Nat.div_mul_cancel h] at hmul
  rw [nearestBits, hmul]

theorem nearestBits_lt (hn : IsExact n) (hm : IsExact m) (h : n < m) :
    nearestBits n < nearestBits m := by
  rw [nearestBits_of_isExact hn, nearestBits_of_isExact hm]
  rcases Nat.lt_or_eq_of_le (exponentOf_mono (Nat.le_of_lt h)) with hlt | heq
  · have := significand_add_le (quotient_lt n) (le_quotient (n := m) (by omega)) hlt
    omega
  · unfold IsExact at hm
    rw [heq]
    exact Nat.add_lt_add_right (Nat.div_lt_div_of_lt_of_dvd hm h) _

theorem isExact_two_pow (n : Nat) : IsExact (2 ^ n) := by
  refine Nat.pow_dvd_pow 2 (exponentOf_le ?_)
  exact Nat.pow_lt_pow_right (by decide) (by omega)

/-- At most 53 bits above as many zeros, or one bit. -/
theorem isExact_mul {k : Nat} (h : k ≤ 2 ^ 53) (zeros : Nat) : IsExact (k * 2 ^ zeros) := by
  rcases Nat.lt_or_eq_of_le h with hlt | rfl
  · have hbound : k * 2 ^ zeros < 2 ^ (zeros + 53) := by
      rw [Nat.add_comm, Nat.pow_add]
      exact Nat.mul_lt_mul_of_pos_right hlt (Nat.two_pow_pos _)
    exact Nat.dvd_trans (Nat.pow_dvd_pow 2 (exponentOf_le hbound)) (Nat.dvd_mul_left ..)
  · rw [← Nat.pow_add]
    exact isExact_two_pow _

theorem nearestBits_mul_le {k : Nat} (h : k ≤ 2 ^ 53) (zeros : Nat) :
    nearestBits (k * 2 ^ zeros) ≤ (zeros + 3) * hiddenBit := by
  have hbound : k * 2 ^ zeros < 2 ^ (zeros + 1 + 53) := by
    rw [Nat.add_assoc, Nat.add_comm, Nat.pow_add]
    exact Nat.mul_lt_mul_of_pos_right (Nat.lt_of_le_of_lt h (by decide)) (Nat.two_pow_pos _)
  have hexponent := Nat.mul_le_mul_right hiddenBit (exponentOf_le hbound)
  have hsignificand := significand_le (k * 2 ^ zeros)
  unfold nearestBits
  rw [Nat.add_mul] at hexponent ⊢
  omega

end Exact

/-! ## Signs and magnitudes -/

section Magnitudes

variable {magnitude : Nat} (negative : Bool) (h : magnitude < signBit)
include h

theorem toNat_ofMagnitude :
    (ofMagnitude negative magnitude).bits.toNat = magnitude + if negative then signBit else 0 := by
  have hsign : signBit = 2 ^ 63 := by decide
  refine UInt64.toNat_ofNat_of_lt' ?_
  have hsize : UInt64.size = 2 ^ 64 := rfl
  split <;> omega

theorem isNegative_ofMagnitude : (ofMagnitude negative magnitude).isNegative = negative := by
  unfold isNegative
  rw [toNat_ofMagnitude negative h]
  cases negative with
  | true => simp
  | false => simpa using h

theorem magnitude_ofMagnitude : (ofMagnitude negative magnitude).magnitude = magnitude := by
  unfold Binary64.magnitude
  rw [toNat_ofMagnitude negative h]
  cases negative with
  | true => rw [if_pos rfl, Nat.add_mod_right, Nat.mod_eq_of_lt h]
  | false => exact Nat.mod_eq_of_lt h

end Magnitudes

theorem toNat_bits (x : Binary64) :
    x.bits.toNat = x.magnitude + if x.isNegative then signBit else 0 := by
  have hsign : signBit = 2 ^ 63 := by decide
  have hlt := x.bits.toNat_lt
  unfold Binary64.magnitude isNegative
  split <;> simp_all <;> omega

theorem rank_injective : Function.Injective rank := by
  intro x y h
  have hx := toNat_bits x
  have hy := toNat_bits y
  have hbits : x.bits.toNat = y.bits.toNat := by
    unfold rank at h
    cases hnx : x.isNegative <;> cases hny : y.isNegative <;> simp [hnx, hny] at h hx hy <;> omega
  obtain ⟨a⟩ := x
  obtain ⟨b⟩ := y
  exact congrArg mk (UInt64.toNat_inj.mp hbits)

/-! ## Integers -/

section Integers

variable {i j : Int}

/-- The units of an integer without its sign. -/
def unitsOf (i : Int) : Nat := i.natAbs * oneUnits

/-- The magnitude of the number nearest to an integer. -/
def magnitudeOf (i : Int) : Nat := min (nearestBits (unitsOf i)) infinityBits

theorem rank_ofInt (i : Int) :
    (ofInt i).rank = if i < 0 then -(magnitudeOf i : Int) - 1 else magnitudeOf i := by
  have hbound : magnitudeOf i < signBit :=
    Nat.lt_of_le_of_lt (Nat.min_le_right ..) (by decide)
  have hofInt : ofInt i = ofMagnitude (i < 0) (magnitudeOf i) := ofUnits_one _ _
  rw [hofInt, rank, isNegative_ofMagnitude _ hbound, magnitude_ofMagnitude _ hbound]
  simp only [decide_eq_true_eq]

theorem magnitudeOf_mono (h : i.natAbs ≤ j.natAbs) : magnitudeOf i ≤ magnitudeOf j :=
  min_le_min (nearestBits_mono (Nat.mul_le_mul_right oneUnits h)) le_rfl

theorem rank_ofInt_mono (h : i ≤ j) : (ofInt i).rank ≤ (ofInt j).rank := by
  rw [rank_ofInt, rank_ofInt]
  split <;> split
  · have := magnitudeOf_mono (i := j) (j := i) (by omega)
    omega
  · omega
  · omega
  · have := magnitudeOf_mono (i := i) (j := j) (by omega)
    omega

/-- Up to this distance from zero every integer is a number. -/
def exactBound : Nat := 2 * hiddenBit

/-- As many zeros follow the one in the units of an integer. -/
def unitBits : Nat := 1074

theorem unitsOf_eq (i : Int) : unitsOf i = i.natAbs * 2 ^ unitBits :=
  congrArg (i.natAbs * ·) (Nat.one_shiftLeft unitBits)

theorem isExact_unitsOf (h : i.natAbs ≤ exactBound) : IsExact (unitsOf i) := by
  have hbound : exactBound = 2 ^ 53 := by decide
  rw [unitsOf_eq]
  exact isExact_mul (hbound ▸ h) unitBits

theorem nearestBits_lt_infinityBits (h : i.natAbs ≤ exactBound) :
    nearestBits (unitsOf i) < infinityBits := by
  have hbound : exactBound = 2 ^ 53 := by decide
  have hle := nearestBits_mul_le (hbound ▸ h) unitBits
  rw [← unitsOf_eq] at hle
  exact Nat.lt_of_le_of_lt hle (by decide)

theorem magnitudeOf_lt (h : i.natAbs < j.natAbs) (hj : j.natAbs ≤ exactBound) :
    magnitudeOf i < magnitudeOf j := by
  have hi := Nat.le_trans (Nat.le_of_lt h) hj
  have hunits : unitsOf i < unitsOf j := by
    rw [unitsOf_eq, unitsOf_eq]
    exact Nat.mul_lt_mul_of_pos_right h (Nat.two_pow_pos _)
  have hlt := nearestBits_lt (isExact_unitsOf hi) (isExact_unitsOf hj) hunits
  have := nearestBits_lt_infinityBits hj
  unfold magnitudeOf
  omega

theorem rank_ofInt_lt (h : i < j) (hi : i.natAbs ≤ exactBound) (hj : j.natAbs ≤ exactBound) :
    (ofInt i).rank < (ofInt j).rank := by
  rw [rank_ofInt, rank_ofInt]
  split <;> split
  · have := magnitudeOf_lt (i := j) (j := i) (by omega) hi
    omega
  · omega
  · omega
  · have := magnitudeOf_lt (i := i) (j := j) (by omega) hj
    omega

end Integers

end MeteredScript.Binary64
