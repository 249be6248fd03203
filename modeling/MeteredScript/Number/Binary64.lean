/-!
Double precision numbers, kept as their 64 bits. Every finite number is a whole multiple of the
smallest positive one, 2⁻¹⁰⁷⁴; arithmetic is exact on these multiples (`units`) and rounds once, to
nearest with ties to the even significand (`ofUnits`). Not-a-number results keep the bits of the
first operand that is not a number.
-/

namespace MeteredScript

structure Binary64 where
  bits : UInt64
deriving DecidableEq, Inhabited, Repr

namespace Binary64

def signBit : Nat := 0x8000000000000000

/-- The first bit above the 52 stored bits of a significand. -/
def hiddenBit : Nat := 0x10000000000000

/-- The bits of positive infinity; a larger magnitude is not a number. -/
def infinityBits : Nat := 0x7ff * hiddenBit

/-- The number one, in units. -/
def oneUnits : Nat := 1 <<< 1074

def isNegative (x : Binary64) : Bool := signBit ≤ x.bits.toNat

/-- The bits without the sign. -/
def magnitude (x : Binary64) : Nat := x.bits.toNat % signBit

def isNaN (x : Binary64) : Bool := infinityBits < x.magnitude

def isInfinite (x : Binary64) : Bool := x.magnitude = infinityBits

def isFinite (x : Binary64) : Bool := x.magnitude < infinityBits

def isZero (x : Binary64) : Bool := x.magnitude = 0

def ofMagnitude (negative : Bool) (magnitude : Nat) : Binary64 :=
  ⟨UInt64.ofNat (magnitude + if negative then signBit else 0)⟩

def infinity (negative : Bool) : Binary64 := ofMagnitude negative infinityBits

def zero (negative : Bool) : Binary64 := ofMagnitude negative 0

/-- The not-a-number that keys are folded to and that texts are read as. -/
def nan (negative : Bool) : Binary64 := ofMagnitude negative (infinityBits + hiddenBit / 2)

/-- The result of an operation without a value, such as zero over zero. -/
def invalid : Binary64 := nan true

/-- The position of the significand above the unit. -/
def shift (x : Binary64) : Nat := x.magnitude / hiddenBit - 1

def significand (x : Binary64) : Nat :=
  x.magnitude % hiddenBit + if x.magnitude < hiddenBit then 0 else hiddenBit

/-- The distance from zero in units; infinity lies above every finite number. -/
def units (x : Binary64) : Nat := x.significand <<< x.shift

def signedUnits (x : Binary64) : Int := if x.isNegative then -x.units else x.units

/-! ## Rounding -/

/-- The whole number nearest to `num / den`; a tie goes to the even one. -/
def divideToEven (num den : Nat) : Nat :=
  let low := num / den
  let rest := num % den
  if 2 * rest < den then low else if den < 2 * rest then low + 1 else low + low % 2

/-- The number nearest to `num / den` units. -/
def ofUnits (negative : Bool) (num den : Nat) : Binary64 :=
  let whole := num / den
  let exponent := if whole < 2 * hiddenBit then 0 else whole.log2 - 52
  let rounded := divideToEven num (den <<< exponent)
  ofMagnitude negative (min (rounded + exponent * hiddenBit) infinityBits)

def ofInt (i : Int) : Binary64 := ofUnits (i < 0) (i.natAbs * oneUnits) 1

/-! ## Arithmetic -/

def quiet (x : Binary64) : Binary64 := ⟨x.bits ||| 0x8000000000000⟩

/-- Applies `op` to two numbers and passes on an operand that is not a number. -/
def lift (op : Binary64 → Binary64 → Binary64) (a b : Binary64) : Binary64 :=
  if a.isNaN then a.quiet else if b.isNaN then b.quiet else op a b

def negate (x : Binary64) : Binary64 := ofMagnitude (!x.isNegative) x.magnitude

private def sum (a b : Binary64) : Binary64 :=
  if a.isInfinite then
    if b.isInfinite && a.isNegative != b.isNegative then invalid else a
  else if b.isInfinite then b
  else
    let total := a.signedUnits + b.signedUnits
    if total = 0 then zero (a.isNegative && b.isNegative) else ofUnits (total < 0) total.natAbs 1

def add : Binary64 → Binary64 → Binary64 := lift sum

def sub : Binary64 → Binary64 → Binary64 := lift fun a b => sum a b.negate

def mul : Binary64 → Binary64 → Binary64 := lift fun a b =>
  let negative := a.isNegative != b.isNegative
  if a.isInfinite || b.isInfinite then
    if a.isZero || b.isZero then invalid else infinity negative
  else ofUnits negative (a.units * b.units) oneUnits

def div : Binary64 → Binary64 → Binary64 := lift fun a b =>
  let negative := a.isNegative != b.isNegative
  if a.isInfinite then if b.isInfinite then invalid else infinity negative
  else if b.isInfinite then zero negative
  else if b.isZero then if a.isZero then invalid else infinity negative
  else ofUnits negative (a.units * oneUnits) b.units

/-- The remainder of the division truncated toward zero, with the sign of the dividend. -/
def rem : Binary64 → Binary64 → Binary64 := lift fun a b =>
  if a.isInfinite || b.isZero then invalid
  else if b.isInfinite then a
  else ofUnits a.isNegative (a.units % b.units) 1

/-- A finite number without a fractional part. -/
def isWhole (x : Binary64) : Bool := x.isFinite && x.units % oneUnits = 0

/-! ## Comparison -/

/-- The order of numbers; `none` if an operand is not a number. -/
def compare? (a b : Binary64) : Option Ordering :=
  if a.isNaN || b.isNaN then none else some (compare a.signedUnits b.signedUnits)

/-- Equality of numbers: the zeros are equal, and nothing equals a not-a-number. -/
def equal (a b : Binary64) : Bool := a.compare? b = some .eq

/-- The place of the bits in the total order: negative before positive, each by magnitude. -/
def rank (x : Binary64) : Int := if x.isNegative then -x.magnitude - 1 else x.magnitude

end Binary64

end MeteredScript
