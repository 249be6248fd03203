import MeteredScript.Number.Shortest

/-!
Reading numbers from text: an optional sign, then digits with an optional point among or around
them and an optional exponent, or one of the words for infinity and not-a-number in any case. The
decimal is rounded once to the nearest number.
-/

namespace MeteredScript

namespace Decimal

/-- The number nearest to the decimal. Beyond 400 digits before or after the point the result is
infinite or zero, so no power of ten above that is computed. -/
def toBinary64 (negative : Bool) (d : Decimal) : Binary64 :=
  if d.digits = 0 ∨ d.leading < -400 then .zero negative
  else if 400 < d.leading then .infinity negative
  else if 0 ≤ d.exponent then
    .ofUnits negative (d.digits * tenTo d.exponent * Binary64.oneUnits) 1
  else .ofUnits negative (d.digits * Binary64.oneUnits) (tenTo (-d.exponent))

end Decimal

namespace Binary64

private def digitsValue (digits : List Char) : Nat :=
  digits.foldl (fun n c => 10 * n + (c.toNat - '0'.toNat)) 0

/-- Splits an optional sign off; true for a minus. -/
private def readSign : List Char → Bool × List Char
  | '-' :: rest => (true, rest)
  | '+' :: rest => (false, rest)
  | rest => (false, rest)

/-- The exponent after a mantissa, which has to end the text. -/
private def readExponent : List Char → Option Int
  | [] => some 0
  | c :: rest =>
    let (negative, digits) := readSign rest
    if (c = 'e' ∨ c = 'E') ∧ digits ≠ [] ∧ digits.all Char.isDigit then
      some (if negative then -digitsValue digits else digitsValue digits)
    else none

private def readDecimal (text : List Char) : Option Decimal :=
  let whole := text.takeWhile Char.isDigit
  let rest := text.dropWhile Char.isDigit
  let (fraction, rest) := match rest with
    | '.' :: more => (more.takeWhile Char.isDigit, more.dropWhile Char.isDigit)
    | _ => ([], rest)
  if whole = [] ∧ fraction = [] then none
  else (readExponent rest).map fun e => ⟨digitsValue (whole ++ fraction), e - fraction.length⟩

private def readWord (negative : Bool) (text : List Char) : Option Binary64 :=
  let word := text.map Char.toLower
  if word = "inf".toList ∨ word = "infinity".toList then some (infinity negative)
  else if word = "nan".toList then some (nan negative)
  else none

/-- The number a text stands for, if the whole text is one. -/
def ofText? (text : List Char) : Option Binary64 :=
  let (negative, body) := readSign text
  match readDecimal body with
  | some d => some (d.toBinary64 negative)
  | none => readWord negative body

end Binary64

end MeteredScript
