import SinosLang.Parse.Grammar
import SinosLang.Proofs.Decimal.Literal
import SinosLang.Proofs.Lexing.Readings
import Mathlib.Algebra.Order.Field.Rat

/-!
# One number in two notations

A decimal text has digits, may have a point among them or beside them, and may end in an exponent.
The scientific form of a decimal number is read as this number. Its positional form is read as a
number with the same value, wherever the point falls and however many zeros it needs. So the source
text of a double denotes the number that its compact form denotes, and it is one literal, which
denotes the double.

Main statement: `positional_faithful`.
-/

set_option autoImplicit false

namespace SinosLang

namespace Binary64

/-- The sign at the front of a text, and what follows it. -/
def splitSign : Text → Bool × Text
  | '-' :: rest => (true, rest)
  | '+' :: rest => (false, rest)
  | text => (false, text)

/-- The exponent that makes up the whole of a text; without one it is zero. -/
def exponent? : Text → Option Int
  | [] => some 0
  | c :: rest =>
    let (negative, digits) := splitSign rest
    if (c == 'e' || c == 'E') && !digits.isEmpty && digits.all Text.isDigit then
      some (if negative then -(Text.toNat digits : Int) else Text.toNat digits)
    else
      none

end Binary64

namespace Decimal

/-- The number itself. -/
def value (d : Decimal) : ℚ :=
  d.coefficient * 10 ^ d.exponent

/-- The digits behind a point, if one stands here, and what follows them. -/
def fractionAt : Text → Text × Text
  | '.' :: rest => (rest.takeWhile Text.isDigit, rest.dropWhile Text.isDigit)
  | rest => ([], rest)

/-- The decimal number that makes up the whole of a text, whatever its exponent. -/
def ofNotation? (text : Text) : Option Decimal :=
  let whole := text.takeWhile Text.isDigit
  let (fraction, afterFraction) := fractionAt (text.dropWhile Text.isDigit)
  if whole.isEmpty && fraction.isEmpty then
    none
  else
    (Binary64.exponent? afterFraction).map fun exponent =>
      ⟨Text.toNat (whole ++ fraction), exponent - fraction.length⟩

/-- The value of a decimal number is the quotient that it is rounded from. -/
theorem value_eq (d : Decimal) : d.value = d.numerator / d.denominator := by
  obtain ⟨coefficient, exponent⟩ := d
  unfold value numerator denominator powerOfTen
  cases exponent with
  | ofNat n => simp
  | negSucc n => simp [zpow_negSucc, div_eq_mul_inv]

/-- Equal fractions are equal numbers. -/
theorem value_eq_of_ratio {first second : Decimal}
    (same : first.numerator * second.denominator = second.numerator * first.denominator) :
    first.value = second.value := by
  have pos (d : Decimal) : (d.denominator : ℚ) ≠ 0 := by
    apply Nat.cast_ne_zero.mpr
    exact (Binary64.powerOfTen_pos _).ne'
  rw [value_eq, value_eq, div_eq_div_iff (pos first) (pos second)]
  exact_mod_cast same

/-! ## Reading the two forms -/

variable {whole fraction tail : Text}

/-- Digits with a point among them. -/
theorem ofNotation?_pointed (digits : whole.IsNumeral)
    (decimals : ∀ c ∈ fraction, Text.isDigit c = true)
    (boundary : ∀ c, tail.head? = some c → Text.isDigit c = false) :
    ofNotation? (whole ++ '.' :: (fraction ++ tail)) =
      (Binary64.exponent? tail).map fun exponent =>
        ⟨Text.toNat (whole ++ fraction), exponent - fraction.length⟩ := by
  obtain ⟨run, behind⟩ := Text.takeWhile_point digits.2 (fraction ++ tail)
  obtain ⟨run', behind'⟩ := Text.takeWhile_append decimals boundary
  have filled : whole.isEmpty = false := by simp [digits.1]
  simp [ofNotation?, fractionAt, run, behind, run', behind', filled]

/-- Digits without a point. -/
theorem ofNotation?_plain (digits : whole.IsNumeral)
    (boundary : ∀ c, tail.head? = some c → Text.isDigit c = false ∧ c ≠ '.') :
    ofNotation? (whole ++ tail) =
      (Binary64.exponent? tail).map fun exponent => ⟨Text.toNat whole, exponent⟩ := by
  obtain ⟨run, behind⟩ := Text.takeWhile_append digits.2 fun c head => (boundary c head).1
  have filled : whole.isEmpty = false := by simp [digits.1]
  have noPoint : fractionAt tail = ([], tail) := by
    unfold fractionAt
    split
    next rest => exact absurd rfl (boundary '.' rfl).2
    next => rfl
  simp [ofNotation?, noPoint, run, behind, filled]

/-- The exponent of the scientific form is read as itself. -/
theorem exponent?_exponentText (exponent : Int) :
    Binary64.exponent? (exponentText exponent) = some exponent := by
  unfold exponentText
  dsimp only
  generalize size_eq : exponent.natAbs = size
  have numeral := (Text.isNumeral_ofNat size).zeros_append (2 - (Text.ofNat size).length)
  have value_eq : Text.toNat (List.replicate (2 - (Text.ofNat size).length) '0' ++
      Text.ofNat size) = size := by
    rw [Text.toNat_zeros_append, Text.toNat_ofNat]
  generalize List.replicate (2 - (Text.ofNat size).length) '0' ++ Text.ofNat size = digits at *
  have filled : digits.isEmpty = false := by simp [numeral.1]
  have all : digits.all Text.isDigit = true := List.all_eq_true.mpr numeral.2
  by_cases negative : exponent < 0
  · simp [Binary64.exponent?, Binary64.splitSign, negative, filled, all, value_eq]
    omega
  · simp [Binary64.exponent?, Binary64.splitSign, negative, filled, all, value_eq]
    omega

/-- The scientific notation of a decimal number is read as that number, digit by digit. -/
theorem ofNotation?_scientific (d : Decimal) : ofNotation? d.scientific = some d := by
  obtain ⟨coefficient, exponent⟩ := d
  have numeral := Text.isNumeral_ofNat coefficient
  have value_eq := Text.toNat_ofNat coefficient
  unfold scientific pointPlace
  dsimp only
  generalize Text.ofNat coefficient = digits at numeral value_eq ⊢
  obtain ⟨first, fraction, rfl⟩ := List.exists_cons_of_ne_nil numeral.1
  have boundary (place : Int) : ∀ c, (exponentText place).head? = some c →
      Text.isDigit c = false ∧ c ≠ '.' := by
    rintro c ⟨⟩
    decide
  have leading : Text.IsNumeral [first] := numeral.take Nat.one_pos
  cases fraction with
  | nil =>
    have plain := ofNotation?_plain leading (boundary exponent)
    rw [List.singleton_append] at plain
    simp [plain, exponent?_exponentText, value_eq]
  | cons second others =>
    let place := ((first :: second :: others).length : Int) + exponent - 1
    have decimals : ∀ c ∈ second :: others, Text.isDigit c = true := by
      intro c isIn
      exact numeral.2 c (List.mem_cons_of_mem _ isIn)
    have pointed := ofNotation?_pointed leading decimals fun c head => (boundary place c head).1
    have shape : [first] ++ '.' :: ((second :: others) ++ exponentText place) =
        (first :: second :: others).take 1 ++ '.' :: (second :: others) ++ exponentText place := by
      simp
    rw [shape, exponent?_exponentText] at pointed
    refine pointed.trans ?_
    have places : place - (others.length + 1 : Int) = exponent := by
      simp only [place, List.length_cons]
      omega
    simp [places, value_eq]

/-- The positional form is read as a number with the same value. -/
theorem ofNotation?_positional (d : Decimal) :
    ∃ plain, ofNotation? d.positional = some plain ∧ plain.value = d.value := by
  obtain ⟨whole, fraction, shape, digits, decimals, same⟩ := d.exists_positional
  have read := @ofNotation?_pointed _ _ [] digits decimals.2 nofun
  rw [List.append_nil, ← shape] at read
  refine ⟨_, read, ?_⟩
  rw [← value_eq_of_ratio same]
  simp [ofDigits]

/-- So is the compact form, which is one of the two. -/
theorem ofNotation?_compact (d : Decimal) :
    ∃ short, ofNotation? d.compact = some short ∧ short.value = d.value := by
  unfold compact
  split
  next => exact d.ofNotation?_positional
  next => exact ⟨d, d.ofNotation?_scientific, rfl⟩

end Decimal

namespace Binary64

/-- The source text of a finite double that is not negative has digits on both sides of a point and no
exponent, and denotes the number that its compact form denotes. Before anything that does not begin
with a digit or a point it is read as one token, which stands for the double. -/
theorem positional_faithful (rank : Fin rankLimit) :
    let x := finite false rank
    (∃ whole fraction : Text, x.positional = whole ++ '.' :: fraction ∧ whole.IsNumeral ∧
      fraction.IsNumeral) ∧
    (∃ plain short, Decimal.ofNotation? x.positional = some plain ∧
      Decimal.ofNotation? x.compact = some short ∧ plain.value = short.value) ∧
    ∀ name before after : Text,
      (∀ c, after.head? = some c → Text.isDigit c = false ∧ c ≠ '.') →
      let stream := Stream.amid name before x.positional after
      let token : Token := ⟨.float, x.positional, ⟨before.length, x.positional.length⟩⟩
      stream.nextToken = (.ok token, stream.advance x.positional.length) ∧
        Parse.leafNode? token = some (.float token.span x) := by
  intro x
  obtain ⟨whole, fraction, shape, digits, decimals, denotes⟩ := exists_literal rank
  refine ⟨⟨whole, fraction, shape, digits, decimals⟩, ?_, ?_⟩
  · obtain ⟨plain, read, value_eq⟩ := (shortest rank).ofNotation?_positional
    obtain ⟨short, read', value_eq'⟩ := (shortest rank).ofNotation?_compact
    exact ⟨plain, short, read, read', value_eq.trans value_eq'.symm⟩
  · intro name before after clear stream token
    have bounded : (ofLiteral (whole ++ '.' :: fraction)).isInfinite = false := by
      rw [denotes]
      rfl
    have spells : Spells x.positional .float x.positional := by
      rw [shape]
      exact .float digits decimals bounded
    have parted : Lexeme.Parted x.positional .float after := by
      intro c head
      obtain ⟨notDigit, notPoint⟩ := clear c head
      simp [Lexeme.joins, notDigit, notPoint]
    have noSlash : x.positional ≠ ['/'] := by
      rw [shape]
      simp [List.append_eq_singleton_iff, digits.1]
    constructor
    · apply Stream.nextToken_amid name before after spells parted
      intro isSlash
      exact absurd isSlash noSlash
    · have value_eq : ofLiteral x.positional = x := (congrArg ofLiteral shape).trans denotes
      exact congrArg (fun value => some (Node.float token.span value)) value_eq

/-- The smallest double, in front of a name. -/
theorem positional_faithful_smallest :
    let x := finite false ⟨1, by decide⟩
    let after := "e7".toList
    (∀ c, after.head? = some c → Text.isDigit c = false ∧ c ≠ '.') ∧
      let stream := Stream.amid [] "1+".toList x.positional after
      let token : Token := ⟨.float, x.positional, ⟨2, x.positional.length⟩⟩
      stream.nextToken = (.ok token, stream.advance x.positional.length) ∧
        Parse.leafNode? token = some (.float token.span x) := by
  intro x after
  have clear : ∀ c, after.head? = some c → Text.isDigit c = false ∧ c ≠ '.' := by
    rintro c ⟨⟩
    decide
  exact ⟨clear, (positional_faithful ⟨1, by decide⟩).2.2 [] "1+".toList after clear⟩

end Binary64

end SinosLang
