import MeteredScript.Number.Shortest

/-!
Texts of numbers. Values are shown without an exponent: whole numbers by all their digits and one
zero after the point, others by their shortest decimal. Literals of a program show the shortest
decimal always, with an exponent below 10⁻⁴ and from 10¹⁶ on.
-/

namespace MeteredScript

namespace Decimal

private def zeros (n : Nat) : String := String.ofList (List.replicate n '0')

/-- The digits with a point at their place, without an exponent. -/
def positional (d : Decimal) : String :=
  let digits := Nat.toDigits 10 d.digits
  if 0 ≤ d.exponent then String.ofList digits ++ zeros d.exponent.toNat
  else
    let places := (-d.exponent).toNat
    if places < digits.length then
      String.ofList (digits.take (digits.length - places)) ++ "." ++
        String.ofList (digits.drop (digits.length - places))
    else "0." ++ zeros (places - digits.length) ++ String.ofList digits

/-- One digit, a point if more follow, and the power of ten of the first digit. -/
def scientific (d : Decimal) : String :=
  let digits := Nat.toDigits 10 d.digits
  let rest := digits.drop 1
  String.ofList (digits.take 1) ++ (if rest.isEmpty then "" else "." ++ String.ofList rest) ++
    "e" ++ toString d.leading

end Decimal

namespace Binary64

private def withSign (x : Binary64) (text : String) : String :=
  if x.isNegative then "-" ++ text else text

/-- The text of a value. -/
def display (x : Binary64) : String :=
  if x.isNaN then "NaN"
  else withSign x <|
    if x.isInfinite then "inf"
    else if x.isWhole then toString (x.units / oneUnits) ++ ".0"
    else x.shortest.positional

/-- The text of a literal. -/
def literal (x : Binary64) : String :=
  if x.isNaN then "NaN"
  else withSign x <|
    if x.isInfinite then "inf"
    else if x.isZero then "0.0"
    else
      let d := x.shortest
      if d.leading < -4 ∨ 15 < d.leading then d.scientific
      else if 0 ≤ d.exponent then d.positional ++ ".0" else d.positional

end Binary64

end MeteredScript
