import SinosLang.Text.Basic

/-!
# Decimal numbers

A decimal number is a coefficient times a power of ten. It is written in one of two ways:
positionally, with digits on both sides of the point, or with an exponent. Exact comparison with a
ratio goes through numerator and denominator.
-/

set_option autoImplicit false

namespace SinosLang

/-- Ten to a power. -/
def powerOfTen (exponent : Nat) : Nat :=
  Nat.pow 10 exponent

/-- The number `coefficient * 10 ^ exponent`. -/
structure Decimal where
  coefficient : Nat
  exponent : Int
deriving DecidableEq, Repr

namespace Decimal

/-- The numerator of a decimal number as a fraction. -/
def numerator (d : Decimal) : Nat :=
  d.coefficient * powerOfTen d.exponent.toNat

/-- The denominator of a decimal number as a fraction: one, unless the exponent is negative. -/
def denominator (d : Decimal) : Nat :=
  powerOfTen (-d.exponent).toNat

/-- How many digits stand before the point when the number is written positionally; negative when
zeros follow the point. -/
def pointPlace (d : Decimal) : Int :=
  (Text.ofNat d.coefficient).length + d.exponent

/-- The positional form: at least one digit on each side of the point. -/
def positional (d : Decimal) : Text :=
  let digits := Text.ofNat d.coefficient
  let place := d.pointPlace
  if place ≤ 0 then
    ['0', '.'] ++ List.replicate (-place).toNat '0' ++ digits
  else if digits.length ≤ place.toNat then
    digits ++ List.replicate (place.toNat - digits.length) '0' ++ ['.', '0']
  else
    digits.take place.toNat ++ '.' :: digits.drop place.toNat

/-- The exponent of a number in scientific form: a sign and at least two digits. -/
def exponentText (exponent : Int) : Text :=
  let digits := Text.ofNat exponent.natAbs
  let sign := if exponent < 0 then '-' else '+'
  'e' :: sign :: (List.replicate (2 - digits.length) '0' ++ digits)

/-- The scientific form: one digit, the others after a point if there are any, and the exponent. -/
def scientific (d : Decimal) : Text :=
  let digits := Text.ofNat d.coefficient
  let fraction := digits.drop 1
  digits.take 1 ++ (if fraction.isEmpty then [] else '.' :: fraction) ++
    exponentText (d.pointPlace - 1)

/-- The compact form: positional while the leading digit stands for `10 ^ -4` up to `10 ^ 15`,
scientific otherwise. -/
def compact (d : Decimal) : Text :=
  if -4 < d.pointPlace && d.pointPlace ≤ 16 then d.positional else d.scientific

end Decimal

end SinosLang
