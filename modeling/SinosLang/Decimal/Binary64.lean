import SinosLang.Decimal.Basic

/-!
# Double-precision numbers

A double is a sign with a rank, or an infinity, or not a number. The rank counts the finite
magnitudes from zero upwards, so it is also the bit pattern of the double without its sign. Every
finite magnitude is a whole multiple of `2 ^ -1074`; `scaled` is that multiple. Rounding a fraction
to the nearest double is one division on natural numbers.
-/

set_option autoImplicit false

namespace SinosLang

/-- Two to a power. -/
def powerOfTwo (exponent : Nat) : Nat :=
  Nat.pow 2 exponent

/-- The rank that the first magnitude too large for a double would have. -/
def Binary64.rankLimit : Nat :=
  2047 * powerOfTwo 52

/-- A double-precision number. The rank of a finite one is its place among the magnitudes, from zero
upwards. -/
inductive Binary64 where
  | finite (negative : Bool) (rank : Fin Binary64.rankLimit)
  | infinite (negative : Bool)
  | nan
deriving DecidableEq

namespace Binary64

/-- The magnitude of a rank as a multiple of `2 ^ -1074`. -/
def scaled (rank : Nat) : Nat :=
  let interval := powerOfTwo 52
  if rank < interval then rank
  else (interval + rank % interval) * powerOfTwo (rank / interval - 1)

/-- The unit that `scaled` counts in, as the denominator of a fraction. -/
def unit : Nat :=
  powerOfTwo 1074

/-- The quotient of two numbers rounded to the nearest whole number, a half to the even one. -/
def divideToNearest (num den : Nat) : Nat :=
  let quotient := num / den
  let remainder := num % den
  if 2 * remainder < den then quotient
  else if den < 2 * remainder then quotient + 1
  else quotient + quotient % 2

/-- The rank of the magnitude nearest to a fraction, a half to the even one. Fractions that are too
large for a double get a rank of at least `rankLimit`. -/
def nearestRank (num den : Nat) : Nat :=
  let bits := (num * unit / den).log2 + 1
  let shift := bits - 53
  shift * powerOfTwo 52 + divideToNearest (num * unit) (den * powerOfTwo shift)

/-- The double nearest to a fraction with a sign. -/
def ofFraction (negative : Bool) (num den : Nat) : Binary64 :=
  let rank := nearestRank num den
  if h : rank < rankLimit then .finite negative ⟨rank, h⟩ else .infinite negative

/-- The double nearest to a decimal number with a sign. -/
def ofDecimal (negative : Bool) (d : Decimal) : Binary64 :=
  ofFraction negative d.numerator d.denominator

/-- Whether a double is an infinity. -/
def isInfinite : Binary64 → Bool
  | .infinite _ => true
  | _ => false

/-- Numeric equality: the two zeros are equal, and what is not a number equals nothing. -/
def same : Binary64 → Binary64 → Bool
  | .finite s a, .finite t b => a == b && (s == t || a.val == 0)
  | .infinite s, .infinite t => s == t
  | _, _ => false

end Binary64

end SinosLang
