import SinosLang.Decimal.Shortest
import SinosLang.Decimal.Reading
import Mathlib.Tactic.Ring

/-!
# Rounding to the nearest double

Rounding looks at the ratio of numerator and denominator only, and a fraction that is equal to a
double is rounded to it. So the exact decimal expansion of a double rounds back to it, and since the
shortest decimal is chosen among those that do, with the expansion behind them, so does that.

Main statement: `readsBack_shortest`.
-/

set_option autoImplicit false

namespace SinosLang.Binary64

variable {num den num' den' rank : Nat}

/-- A common factor makes no difference to a division. -/
theorem divideToNearest_mul (num den : Nat) {factor : Nat} (pos : 0 < factor) :
    divideToNearest (num * factor) (den * factor) = divideToNearest num den := by
  unfold divideToNearest
  rw [Nat.mul_div_mul_right _ _ pos, Nat.mul_mod_mul_right]
  have below : 2 * (num % den * factor) < den * factor ↔ 2 * (num % den) < den := by
    rw [← Nat.mul_assoc]
    exact Nat.mul_lt_mul_right pos
  have above : den * factor < 2 * (num % den * factor) ↔ den < 2 * (num % den) := by
    rw [← Nat.mul_assoc]
    exact Nat.mul_lt_mul_right pos
  simp only [below, above]

/-- A common factor makes no difference to the nearest double. -/
theorem nearestRank_mul (num den : Nat) {factor : Nat} (pos : 0 < factor) :
    nearestRank (num * factor) (den * factor) = nearestRank num den := by
  unfold nearestRank
  have scaled_eq : num * factor * unit = num * unit * factor := Nat.mul_right_comm _ _ _
  have shifted_eq (shift : Nat) : den * factor * shift = den * shift * factor :=
    Nat.mul_right_comm _ _ _
  rw [scaled_eq, Nat.mul_div_mul_right _ _ pos]
  simp only [shifted_eq, divideToNearest_mul _ _ pos]

/-- Equal fractions are rounded to the same double. -/
theorem nearestRank_eq_of_ratio (pos : 0 < den) (pos' : 0 < den')
    (same : num * den' = num' * den) : nearestRank num den = nearestRank num' den' := by
  rw [← nearestRank_mul num den pos', ← nearestRank_mul num' den' pos, same, Nat.mul_comm den]

/-- A division without a remainder is not rounded. -/
theorem divideToNearest_exact (quotient : Nat) (pos : 0 < den) :
    divideToNearest (quotient * den) den = quotient := by
  unfold divideToNearest
  rw [Nat.mul_mod_left, Nat.mul_div_cancel _ pos]
  simp [pos]

/-- A fraction equal to the magnitude of a rank is rounded to it. -/
theorem nearestRank_of_exact (pos : 0 < den) (exact : num * unit = scaled rank * den) :
    nearestRank num den = rank := by
  unfold nearestRank
  rw [exact, Nat.mul_div_cancel _ pos]
  unfold scaled powerOfTwo
  simp only [Nat.pow_eq]
  split
  next subnormal =>
    -- the bits of the rank fit, so nothing is shifted out
    have shift : rank.log2 + 1 - 53 = 0 := by
      by_cases zero : rank = 0
      · subst zero
        rfl
      · have := (Nat.log2_lt zero).mpr subnormal
        omega
    simp only [shift, Nat.zero_mul, Nat.zero_add, Nat.pow_zero, Nat.mul_one]
    exact divideToNearest_exact rank pos
  next normal =>
    have split : 2 ^ 52 * (rank / 2 ^ 52) + rank % 2 ^ 52 = rank := Nat.div_add_mod _ _
    have less : rank % 2 ^ 52 < 2 ^ 52 := Nat.mod_lt _ (by decide)
    generalize rank / 2 ^ 52 = binade at split
    generalize rank % 2 ^ 52 = fraction at split less
    obtain ⟨shift, rfl⟩ : ∃ shift, binade = shift + 1 := ⟨binade - 1, by omega⟩
    rw [Nat.add_sub_cancel]
    have bits : ((2 ^ 52 + fraction) * 2 ^ shift).log2 = 52 + shift := by
      have pos : 0 < 2 ^ shift := Nat.two_pow_pos shift
      have notZero : (2 ^ 52 + fraction) * 2 ^ shift ≠ 0 :=
        (Nat.mul_pos (by omega) pos).ne'
      apply Nat.le_antisymm
      · apply Nat.le_of_lt_succ
        rw [Nat.log2_lt notZero]
        calc (2 ^ 52 + fraction) * 2 ^ shift
            < 2 ^ 53 * 2 ^ shift := (Nat.mul_lt_mul_right pos).mpr (by omega)
          _ = 2 ^ (52 + shift).succ := by rw [← Nat.pow_add, Nat.succ_eq_add_one, Nat.add_right_comm]
      · rw [Nat.le_log2 notZero]
        calc 2 ^ (52 + shift) = 2 ^ 52 * 2 ^ shift := Nat.pow_add _ _ _
          _ ≤ (2 ^ 52 + fraction) * 2 ^ shift := Nat.mul_le_mul_right _ (Nat.le_add_right _ _)
    have shift_eq : 52 + shift + 1 - 53 = shift := by omega
    rw [bits, shift_eq, Nat.mul_assoc, Nat.mul_comm (2 ^ shift),
      divideToNearest_exact _ (Nat.mul_pos pos (Nat.two_pow_pos shift))]
    rw [← split]
    ring

/-- Powers of ten are positive. -/
theorem powerOfTen_pos (exponent : Nat) : 0 < powerOfTen exponent :=
  Nat.pow_pos (by decide)

/-- A number times a power of two and of five is the number times a power of ten. -/
theorem mul_powerOfTen (factor exponent : Nat) :
    factor * Nat.pow 5 exponent * powerOfTwo exponent = factor * powerOfTen exponent := by
  rw [Nat.mul_assoc]
  exact congrArg (factor * ·) (Nat.mul_pow 5 2 exponent).symm

/-- The exact expansion rounds back. -/
theorem readsBack_expansion (rank : Nat) : readsBack rank (expansion rank) = true := by
  have balanced (exponent : Nat) : scaled rank * Nat.pow 5 exponent * powerOfTen 0 *
      powerOfTwo exponent = scaled rank * powerOfTen exponent := by
    rw [show powerOfTen 0 = 1 from rfl, Nat.mul_one]
    exact mul_powerOfTen (scaled rank) exponent
  rw [readsBack, beq_iff_eq]
  refine nearestRank_of_exact (powerOfTen_pos _) ?_
  unfold expansion Decimal.numerator Decimal.denominator unit
  exact balanced _

/-- The shortest decimal rounds back. -/
theorem readsBack_shortest (rank : Nat) : readsBack rank (shortest rank) = true := by
  unfold shortest
  split
  next zero =>
    subst zero
    rw [readsBack, beq_iff_eq]
    have none : scaled 0 = 0 := rfl
    refine nearestRank_of_exact (powerOfTen_pos _) ?_
    rw [none, Decimal.numerator, Nat.zero_mul, Nat.zero_mul, Nat.zero_mul]
  next =>
    dsimp only
    generalize (List.range 17).flatMap _ = candidates
    cases found : candidates.find? (readsBack rank) with
    | none =>
      rw [Option.getD_none]
      exact readsBack_expansion rank
    | some decimal =>
      rw [Option.getD_some]
      exact List.find?_some found

end SinosLang.Binary64
