import MeteredScript.Number.Binary64

/-!
The shortest decimal that reads back as a given number. On the grid of `n`-digit decimals only the
two neighbours of the number can lie among the reals that round to it; the first grid with such a
neighbour gives the digits, the nearer neighbour first and the larger one on a tie.
-/

namespace MeteredScript

/-- The number `digits · 10 ^ exponent`. -/
structure Decimal where
  digits : Nat
  exponent : Int
deriving DecidableEq, Repr

namespace Decimal

def digitCount (n : Nat) : Nat := (Nat.toDigits 10 n).length

/-- The power of ten of the first digit. -/
def leading (d : Decimal) : Int := d.exponent + digitCount d.digits - 1

/-- Moves zeros at the end of the digits into the exponent; the fuel bounds their number. -/
def trimZeros : Nat → Decimal → Decimal
  | 0, d => d
  | fuel + 1, d =>
    if d.digits ≠ 0 ∧ d.digits % 10 = 0 then trimZeros fuel ⟨d.digits / 10, d.exponent + 1⟩ else d

end Decimal

/-- A power of ten. -/
def tenTo (e : Int) : Nat := Nat.pow 10 e.toNat

namespace Binary64

/-- Whether `10 ^ e` is at most `num / den`. -/
private def powerAtMost (e : Int) (num den : Nat) : Bool :=
  if 0 ≤ e then tenTo e * den ≤ num else den ≤ num * tenTo (-e)

/-- The power of ten of the first digit of `num / den`, next to an estimate from its logarithm. -/
private def leadingPower (num den : Nat) : Int :=
  let guess := ((num.log2 : Int) - den.log2) * 30103 / 100000
  if powerAtMost (guess + 1) num den then guess + 1
  else if powerAtMost guess num den then guess else guess - 1

/-- The `n`-digit neighbour of the number that reads back as it, if there is one. -/
private def onGrid (low value high den : Nat) (closed : Bool) (exponent : Int) : Option Decimal :=
  let scale := if 0 ≤ exponent then 1 else tenTo (-exponent)
  let step := if 0 ≤ exponent then den * tenTo exponent else den
  let below := value * scale / step
  let gap := value * scale - below * step
  let downFits := below ≠ 0 ∧ if closed then low * scale ≤ below * step else low * scale < below * step
  let upFits :=
    if closed then (below + 1) * step ≤ high * scale else (below + 1) * step < high * scale
  if downFits ∧ (¬ upFits ∨ gap < step - gap) then some ⟨below, exponent⟩
  else if upFits then some ⟨below + 1, exponent⟩
  else none

/-- The shortest decimal of the absolute value of a finite number that is not zero. -/
def shortest (x : Binary64) : Decimal :=
  let value := 4 * x.units
  let gap := 1 <<< x.shift
  let high := value + 2 * gap
  let low := value - if x.significand = hiddenBit ∧ 0 < x.shift then gap else 2 * gap
  let den := 4 * oneUnits
  let leading := leadingPower value den
  let found := (List.range 17).findSome? fun (n : Nat) =>
    onGrid low value high den (x.significand % 2 = 0) (leading - n)
  (found.getD ⟨0, 0⟩).trimZeros 17

end Binary64

end MeteredScript
