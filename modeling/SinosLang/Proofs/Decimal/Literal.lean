import SinosLang.Proofs.Decimal.Rounding
import SinosLang.Proofs.Lexing.Spelling

/-!
# Float literals

The positional form of a decimal number has digits on both sides of a point, so it is a literal of
the language, and the literal denotes the same number. The source text of a double that is finite and
not negative is the positional form of its shortest decimal, which rounds back to the double.

Main statement: `exists_literal`, the source text of such a double is a literal that denotes it.
-/

set_option autoImplicit false

namespace SinosLang

namespace Text

variable {digits front : Text}

/-- The number of a row of digits is the library's number in base ten. -/
theorem toNat_eq (digits : Text) : toNat digits = Nat.ofDigitChars 10 digits 0 := rfl

/-- The digits of a number denote it. -/
@[simp]
theorem toNat_ofNat (n : Nat) : toNat (ofNat n) = n := by
  rw [toNat_eq, ofNat, Nat.ofDigitChars_ten_toDigits]

/-- Digits behind others count for less than a unit of these. -/
theorem toNat_append (front digits : Text) :
    toNat (front ++ digits) = 10 ^ digits.length * toNat front + toNat digits := by
  rw [toNat_eq, Nat.ofDigitChars_append, Nat.ofDigitChars_eq_ofDigitChars_zero]
  rfl

/-- A row of zeros is the number zero. -/
theorem toNat_replicate_zero (count : Nat) : toNat (List.replicate count '0') = 0 := by
  rw [toNat_eq, Nat.ofDigitChars_replicate_zero, Nat.mul_zero]

/-- Zeros before a run of digits make no difference. -/
theorem toNat_zeros_append (count : Nat) (digits : Text) :
    toNat (List.replicate count '0' ++ digits) = toNat digits := by
  rw [toNat_append, toNat_replicate_zero, Nat.mul_zero, Nat.zero_add]

/-- The digits of a number are a numeral. -/
theorem isNumeral_ofNat (n : Nat) : IsNumeral (ofNat n) :=
  ⟨Nat.toDigits_ne_nil, fun _ isIn => Nat.isDigit_of_mem_toDigits (by decide) (by decide) isIn⟩

/-- A zero is a digit. -/
theorem isDigit_of_mem_replicate_zero {count : Nat} {c : Char}
    (isIn : c ∈ List.replicate count '0') : isDigit c = true := by
  rw [List.eq_of_mem_replicate isIn]
  rfl

/-- A numeral with zeros behind it. -/
theorem IsNumeral.append_zeros (numeral : digits.IsNumeral) (count : Nat) :
    IsNumeral (digits ++ List.replicate count '0') :=
  ⟨List.append_ne_nil_of_left_ne_nil numeral.1 _,
    List.forall_mem_append.mpr ⟨numeral.2, fun _ isIn => isDigit_of_mem_replicate_zero isIn⟩⟩

/-- A numeral with zeros before it. -/
theorem IsNumeral.zeros_append (numeral : digits.IsNumeral) (count : Nat) :
    IsNumeral (List.replicate count '0' ++ digits) :=
  ⟨List.append_ne_nil_of_right_ne_nil _ numeral.1,
    List.forall_mem_append.mpr ⟨fun _ isIn => isDigit_of_mem_replicate_zero isIn, numeral.2⟩⟩

/-- The first digits of a numeral, if there are any. -/
theorem IsNumeral.take (numeral : digits.IsNumeral) {count : Nat} (pos : 0 < count) :
    IsNumeral (digits.take count) := by
  have size := List.length_pos_iff.mpr numeral.1
  refine ⟨List.ne_nil_of_length_pos ?_, fun c isIn => numeral.2 c (List.mem_of_mem_take isIn)⟩
  rw [List.length_take]
  omega

/-- The digits of a numeral behind the first ones, if there are any. -/
theorem IsNumeral.drop (numeral : digits.IsNumeral) {count : Nat} (lt : count < digits.length) :
    IsNumeral (digits.drop count) := by
  refine ⟨List.ne_nil_of_length_pos ?_, fun c isIn => numeral.2 c (List.mem_of_mem_drop isIn)⟩
  rw [List.length_drop]
  omega

/-- A run of digits denotes a number below the next power of ten. -/
theorem toNat_lt (all : ∀ c ∈ digits, isDigit c = true) : toNat digits < 10 ^ digits.length := by
  suffices below : ∀ value, Nat.ofDigitChars 10 digits value < 10 ^ digits.length * (value + 1) by
    simpa [toNat_eq] using below 0
  induction digits with
  | nil => intro value; simp
  | cons c digits ih =>
    intro value
    have digit := all c List.mem_cons_self
    have small : c.toNat - '0'.toNat ≤ 9 := by
      have bounds := toNat_of_isDigit digit
      have zero : '0'.toNat = 0x30 := rfl
      omega
    rw [Nat.ofDigitChars_cons]
    calc Nat.ofDigitChars 10 digits (10 * value + (c.toNat - '0'.toNat))
        < 10 ^ digits.length * (10 * value + (c.toNat - '0'.toNat) + 1) :=
          ih (fun other isIn => all other (List.mem_cons_of_mem _ isIn)) _
      _ ≤ 10 ^ digits.length * (10 * (value + 1)) := Nat.mul_le_mul_left _ (by omega)
      _ = 10 ^ (c :: digits).length * (value + 1) := by
          rw [List.length_cons, Nat.pow_succ, Nat.mul_assoc]

/-- A numeral denotes a number with no more digits. -/
theorem length_ofNat_toNat_le (numeral : IsNumeral digits) :
    (ofNat (toNat digits)).length ≤ digits.length :=
  (Nat.length_toDigits_le_iff (by decide) (List.length_pos_iff.mpr numeral.1)).mpr
    (toNat_lt numeral.2)

end Text

namespace Decimal

/-- Equal decimal numbers are rounded to the same double. -/
theorem nearestRank_eq {first second : Decimal}
    (same : first.numerator * second.denominator = second.numerator * first.denominator) :
    Binary64.nearestRank first.numerator first.denominator =
      Binary64.nearestRank second.numerator second.denominator :=
  Binary64.nearestRank_eq_of_ratio (Binary64.powerOfTen_pos _) (Binary64.powerOfTen_pos _) same

/-- The positional form consists of digits, a point and digits, and denotes the same number. -/
theorem exists_positional (d : Decimal) :
    ∃ whole fraction : Text, d.positional = whole ++ '.' :: fraction ∧ whole.IsNumeral ∧
      fraction.IsNumeral ∧
      (ofDigits whole fraction).numerator * d.denominator =
        d.numerator * (ofDigits whole fraction).denominator := by
  obtain ⟨coefficient, exponent⟩ := d
  have numeral := Text.isNumeral_ofNat coefficient
  have value_eq := Text.toNat_ofNat coefficient
  have zeroNumeral : Text.IsNumeral ['0'] := Text.isNumeral_ofNat 0
  unfold positional pointPlace
  dsimp only
  generalize Text.ofNat coefficient = digits at numeral value_eq
  have size := List.length_pos_iff.mpr numeral.1
  -- digits with as many of them behind the point as the exponent says are the number itself
  have exact {whole fraction : Text} (value : Text.toNat (whole ++ fraction) = coefficient)
      (places : -(fraction.length : Int) = exponent) :
      (ofDigits whole fraction).numerator * (mk coefficient exponent).denominator =
        (mk coefficient exponent).numerator * (ofDigits whole fraction).denominator := by
    rw [ofDigits, value, places]
  split
  next noneBefore =>
    refine ⟨['0'], List.replicate (-((digits.length : Int) + exponent)).toNat '0' ++ digits, by simp,
      zeroNumeral, numeral.zeros_append _, exact ?_ ?_⟩
    · rw [Text.toNat_append, Text.toNat_zeros_append, value_eq]
      simp [Text.toNat]
    · rw [List.length_append, List.length_replicate]
      omega
  next someBefore =>
    split
    next allBefore =>
      have zeros : ((digits.length : Int) + exponent).toNat - digits.length = exponent.toNat := by
        omega
      have negative : (-exponent).toNat = 0 := by omega
      have zero : Text.toNat ['0'] = 0 := rfl
      have above : (-(1 : Int)).toNat = 0 := rfl
      have below : (-(-(1 : Int))).toNat = 1 := rfl
      rw [zeros]
      refine ⟨digits ++ List.replicate exponent.toNat '0', ['0'], by simp, numeral.append_zeros _,
        zeroNumeral, ?_⟩
      rw [ofDigits, Text.toNat_append, Text.toNat_append, Text.toNat_replicate_zero, value_eq, zero,
        List.length_replicate]
      simp only [numerator, denominator, powerOfTen, List.length_cons, List.length_nil, Nat.pow_eq,
        Nat.zero_add, Nat.cast_one, negative, above, below]
      ring
    next notAll =>
      refine ⟨digits.take ((digits.length : Int) + exponent).toNat,
        digits.drop ((digits.length : Int) + exponent).toNat, rfl, numeral.take (by omega),
        numeral.drop (by omega), exact ?_ ?_⟩
      · rw [List.take_append_drop, value_eq]
      · rw [List.length_drop]
        omega

end Decimal

namespace Binary64

/-- The literal with the given digits before and after the point. -/
theorem ofLiteral_eq {whole : Text} (digits : whole.IsNumeral) (fraction : Text) :
    ofLiteral (whole ++ '.' :: fraction) = ofDecimal false (Decimal.ofDigits whole fraction) := by
  obtain ⟨run, after⟩ := Text.takeWhile_point digits.2 fraction
  simp only [ofLiteral, run, after, List.drop_succ_cons, List.drop_zero]

/-- The double that a decimal number is rounded to. -/
theorem ofDecimal_eq {d : Decimal} (negative : Bool) {rank : Fin rankLimit}
    (reads : nearestRank d.numerator d.denominator = rank) :
    ofDecimal negative d = .finite negative rank := by
  unfold ofDecimal ofFraction
  simp only [reads, rank.isLt, dif_pos]

/-- The source text of a finite double that is not negative is a literal that denotes it. -/
theorem exists_literal (rank : Fin rankLimit) :
    ∃ whole fraction : Text, positional (.finite false rank) = whole ++ '.' :: fraction ∧
      whole.IsNumeral ∧ fraction.IsNumeral ∧
      ofLiteral (whole ++ '.' :: fraction) = .finite false rank := by
  obtain ⟨whole, fraction, shape, digits, decimals, same⟩ :=
    (shortest rank).exists_positional
  have reads : nearestRank (shortest rank).numerator (shortest rank).denominator = rank :=
    beq_iff_eq.mp (readsBack_shortest rank)
  refine ⟨whole, fraction, shape, digits, decimals, ?_⟩
  rw [ofLiteral_eq digits fraction]
  exact ofDecimal_eq false ((Decimal.nearestRank_eq same).trans reads)

/-- A literal that does not overflow denotes a finite double that is not negative. -/
theorem ofLiteral_finite {text : Text} (bounded : (ofLiteral text).isInfinite = false) :
    ∃ rank, ofLiteral text = .finite false rank := by
  unfold ofLiteral ofDecimal ofFraction at bounded ⊢
  dsimp only at bounded ⊢
  split at bounded
  next fits => exact ⟨_, dif_pos fits⟩
  next => cases bounded

end Binary64

end SinosLang
