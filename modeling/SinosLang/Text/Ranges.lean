/-!
# Ranges of code points

A character class beyond ASCII is a list of closed ranges. This module holds the test for membership
and the shape of one run of a case table.
-/

set_option autoImplicit false

namespace SinosLang.Text

/-- Whether a character lies in one of the closed ranges. -/
def inRanges (ranges : List (Nat × Nat)) (c : Char) : Bool :=
  ranges.any fun range => range.1 ≤ c.toNat && c.toNat ≤ range.2

/-- One run of a case table: from `first` to `last` in steps of `step`, each code point moves by
`shift`. -/
structure CaseRun where
  first : Nat
  last : Nat
  step : Nat
  shift : Int

/-- Where a run sends a code point, if the run reaches it. -/
def CaseRun.target? (run : CaseRun) (code : Nat) : Option Nat :=
  if run.first ≤ code && code ≤ run.last && (code - run.first) % run.step == 0 then
    some (code + run.shift).toNat
  else
    none

end SinosLang.Text
