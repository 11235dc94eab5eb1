import SinosLang.Decimal.Binary64

/-!
# The shortest decimal of a double

The decimal number with the fewest digits that rounds back to a given double, and of those the one
nearest to it. For one digit, two digits and so on up to seventeen, the two neighbours of the value
on that decimal grid are tried; the exact decimal expansion stands behind them, so that what is
chosen always rounds back.
-/

set_option autoImplicit false

namespace SinosLang.Binary64

/-- Whether a decimal number rounds to the double of a rank. -/
def readsBack (rank : Nat) (d : Decimal) : Bool :=
  nearestRank d.numerator d.denominator == rank

/-- The power of ten that the leading digit of a magnitude stands for; the magnitude is not zero. -/
def leadingExponent (rank : Nat) : Int :=
  (Text.ofNat (scaled rank * powerOfTen 400 / unit)).length - 401

/-- A point of a grid as a decimal number; a coefficient that is a power of ten is written as
one. -/
def gridPoint (digits coefficient : Nat) (grid : Int) : Decimal :=
  if coefficient == powerOfTen digits then ⟨1, grid + digits⟩ else ⟨coefficient, grid⟩

/-- The two neighbours of a magnitude among the decimal numbers with so many digits, the first of
them for the power of ten `leading`. The nearer one comes first and, at a tie, the even one. -/
def neighbours (rank : Nat) (leading : Int) (digits : Nat) : List Decimal :=
  let grid := leading - (digits - 1)
  let num := scaled rank * powerOfTen (-grid).toNat
  let den := unit * powerOfTen grid.toNat
  let low := num / den
  let below := gridPoint digits low grid
  let above := gridPoint digits (low + 1) grid
  if divideToNearest num den == low then [below, above] else [above, below]

/-- The magnitude of a rank written out in full. -/
def expansion (rank : Nat) : Decimal :=
  ⟨scaled rank * Nat.pow 5 1074, -1074⟩

/-- The shortest decimal number that rounds back to the double of a rank. -/
def shortest (rank : Nat) : Decimal :=
  if rank = 0 then
    ⟨0, 0⟩
  else
    let leading := leadingExponent rank
    let candidates := (List.range 17).flatMap fun fewer => neighbours rank leading (fewer + 1)
    (candidates.find? (readsBack rank)).getD (expansion rank)

/-- A text after a minus sign, if there is one. -/
def signed (negative : Bool) (text : Text) : Text :=
  if negative then '-' :: text else text

/-- A double as listings and documents show it, in the compact form of its shortest decimal. -/
def compact : Binary64 → Text
  | .finite negative rank => signed negative (shortest rank).compact
  | .infinite negative => signed negative "inf".toList
  | .nan => "nan".toList

/-- A double as source text, in the positional form of its shortest decimal. The values that have no
literal still end in a fraction. -/
def positional : Binary64 → Text
  | .finite negative rank => signed negative (shortest rank).positional
  | .infinite negative => signed negative "Infinity.0".toList
  | .nan => "NaN.0".toList

end SinosLang.Binary64
