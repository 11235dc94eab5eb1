import SinosLang.Decimal.Binary64

/-!
# Reading literals

A float literal of the language has digits on both sides of a point. It denotes the double nearest to
the decimal number that is written there.
-/

set_option autoImplicit false

namespace SinosLang

/-- The decimal number with the given digits before and after the point. -/
def Decimal.ofDigits (whole fraction : Text) : Decimal :=
  ⟨Text.toNat (whole ++ fraction), -fraction.length⟩

namespace Binary64

/-- The double that a float literal of the language denotes. -/
def ofLiteral (text : Text) : Binary64 :=
  let whole := text.takeWhile Text.isDigit
  let fraction := (text.dropWhile Text.isDigit).drop 1
  ofDecimal false (Decimal.ofDigits whole fraction)

end Binary64

end SinosLang
