import SinosLang.Json
import SinosLang.Proofs.Decimal.Notation
import SinosLang.Proofs.Text.Delimiters

/-!
# Numbers of a JSON document

A number has a sign, a whole part without zeros in front, and may have a fraction and an exponent. With
neither of these it is an integer of any size, otherwise the nearest double. The reader takes all
characters that may stand in a number. An integer is written as itself, and a finite double in the
compact form of its shortest decimal, which always has a fraction or an exponent and is rounded back
to the double.

Main statements: `number?_of_number`, `number_ofInt` and `number_finite`.
-/

set_option autoImplicit false

namespace SinosLang

open Binary64 (signed)

namespace Json

/-- The whole part of a number: digits, the first of them a zero only if it is the only one. -/
def IsWhole (digits : Text) : Prop :=
  digits.IsNumeral ∧ (digits.head? = some '0' → digits = ['0'])

/-- The fraction of a number, if there is one, and its digits. -/
inductive Fraction : Text → Text → Prop
  | absent : Fraction [] []
  | present {digits : Text} : digits.IsNumeral → Fraction ('.' :: digits) digits

/-- The exponent of a number, if there is one, and its value. -/
inductive Exponent : Text → Int → Prop
  | absent : Exponent [] 0
  | unsigned {mark : Char} {digits : Text} : mark ∈ ['e', 'E'] → digits.IsNumeral →
    Exponent (mark :: digits) (Text.toNat digits)
  | positive {mark : Char} {digits : Text} : mark ∈ ['e', 'E'] → digits.IsNumeral →
    Exponent (mark :: '+' :: digits) (Text.toNat digits)
  | negative {mark : Char} {digits : Text} : mark ∈ ['e', 'E'] → digits.IsNumeral →
    Exponent (mark :: '-' :: digits) (-Text.toNat digits)

/-- A number, and the value that it stands for: an integer if it has neither a fraction nor an
exponent, and else the double nearest to it. -/
inductive Number : Text → Json → Prop
  | integer (negative : Bool) {whole : Text} : IsWhole whole →
    Number (signed negative whole)
      (.integer (if negative then -Text.toNat whole else Text.toNat whole))
  | float (negative : Bool) {whole point fraction tail : Text} {exponent : Int} :
    IsWhole whole → Fraction point fraction → Exponent tail exponent → point ++ tail ≠ [] →
    Number (signed negative (whole ++ (point ++ tail)))
      (.float (Binary64.ofDecimal negative
        ⟨Text.toNat (whole ++ fraction), exponent - fraction.length⟩))

/-! ## Reading -/

/-- A character that may stand in a number. -/
def isNumberPart (c : Char) : Bool :=
  Text.isDigit c || ['+', '-', '.', 'e', 'E'].contains c

/-- Whether there is a minus sign in front, and what is behind it. -/
def minus : Text → Bool × Text
  | '-' :: rest => (true, rest)
  | text => (false, text)

/-- The value of a text that is a number. -/
def ofNumber? (text : Text) : Option Json :=
  let (negative, body) := minus text
  if body.all Text.isDigit then
    some (.integer (if negative then -Text.toNat body else Text.toNat body))
  else
    (Decimal.ofNotation? body).map fun d => .float (Binary64.ofDecimal negative d)

/-- Takes a number off the front of a text. -/
def number? (text : Text) : Option (Json × Text) :=
  (ofNumber? (text.takeWhile isNumberPart)).map fun document =>
    (document, text.dropWhile isNumberPart)

variable {text whole point fraction tail rest digits : Text} {document : Json} {exponent : Int}

/-- A digit is part of a number. -/
theorem isNumberPart_of_digit {c : Char} (digit : Text.isDigit c = true) :
    isNumberPart c = true := by
  rw [isNumberPart, digit, Bool.true_or]

/-- A digit is no sign. -/
theorem ne_sign_of_digit {c : Char} (digit : Text.isDigit c = true) : c ≠ '-' ∧ c ≠ '+' := by
  constructor
  · rintro rfl
    cases digit
  · rintro rfl
    cases digit

/-- A sign in front of digits is taken off them. -/
theorem minus_signed (negative : Bool) (digits : whole.IsNumeral) (rest : Text) :
    minus (signed negative (whole ++ rest)) = (negative, whole ++ rest) := by
  cases negative with
  | true => rfl
  | false =>
    obtain ⟨first, others, rfl⟩ := List.exists_cons_of_ne_nil digits.1
    have notSign := (ne_sign_of_digit (digits.2 first List.mem_cons_self)).1
    show minus (first :: (others ++ rest)) = _
    unfold minus
    split
    next same => exact absurd (List.cons.inj same).1 notSign
    next => rfl

/-- A numeral has no sign to split off. -/
theorem splitSign_numeral (numeral : digits.IsNumeral) :
    Binary64.splitSign digits = (false, digits) := by
  obtain ⟨first, others, rfl⟩ := List.exists_cons_of_ne_nil numeral.1
  have notSign := ne_sign_of_digit (numeral.2 first List.mem_cons_self)
  unfold Binary64.splitSign
  split
  next same => exact absurd (List.cons.inj same).1 notSign.1
  next same => exact absurd (List.cons.inj same).1 notSign.2
  next => rfl

/-- The head of an exponent is its mark. -/
theorem Exponent.head (isExponent : Exponent tail exponent) :
    ∀ c, tail.head? = some c → c ∈ ['e', 'E'] := by
  cases isExponent with
  | absent => nofun
  | unsigned isMark _ | positive isMark _ | negative isMark _ =>
    rintro c ⟨⟩
    exact isMark

/-- An exponent is read as the number that it denotes. -/
theorem Exponent.read (isExponent : Exponent tail exponent) :
    Binary64.exponent? tail = some exponent := by
  have marked {mark : Char} (isMark : mark ∈ ['e', 'E']) : (mark == 'e' || mark == 'E') = true := by
    simpa using isMark
  cases isExponent with
  | absent => rfl
  | unsigned isMark numeral =>
    simpa [Binary64.exponent?, splitSign_numeral numeral, marked isMark, numeral.1] using numeral.2
  | positive isMark numeral =>
    simpa [Binary64.exponent?, Binary64.splitSign, marked isMark, numeral.1] using numeral.2
  | negative isMark numeral =>
    simpa [Binary64.exponent?, Binary64.splitSign, marked isMark, numeral.1] using numeral.2

/-- The parts of a number that is no integer are read one after the other. -/
theorem ofNotation?_parts (isWhole : IsWhole whole) (isFraction : Fraction point fraction)
    (isExponent : Exponent tail exponent) :
    Decimal.ofNotation? (whole ++ (point ++ tail)) =
      some ⟨Text.toNat (whole ++ fraction), exponent - fraction.length⟩ := by
  have marks : ∀ c ∈ ['e', 'E'], Text.isDigit c = false ∧ c ≠ '.' :=
    List.forall_iff_forall_mem.mp (by decide)
  have boundary (c : Char) (head : tail.head? = some c) : Text.isDigit c = false ∧ c ≠ '.' :=
    marks c (isExponent.head c head)
  cases isFraction with
  | absent =>
    rw [List.nil_append, Decimal.ofNotation?_plain isWhole.1 boundary, isExponent.read]
    simp
  | present numeral =>
    rw [List.cons_append, Decimal.ofNotation?_pointed isWhole.1 numeral.2
      fun c head => (boundary c head).1, isExponent.read]
    rfl

/-- A number is read as the document that it denotes. -/
theorem ofNumber?_of_number (isNumber : Number text document) : ofNumber? text = some document := by
  cases isNumber with
  | @integer negative whole isWhole =>
    have split := minus_signed negative isWhole.1 []
    have all : whole.all Text.isDigit = true := List.all_eq_true.mpr isWhole.1.2
    rw [List.append_nil] at split
    simp only [ofNumber?, split, all, if_true]
  | @float negative whole point fraction tail exponent isWhole isFraction isExponent filled =>
    have notAll : (whole ++ (point ++ tail)).all Text.isDigit = false := by
      have mark : ∀ c ∈ '.' :: ['e', 'E'], Text.isDigit c = false :=
        List.forall_iff_forall_mem.mp (by decide)
      obtain ⟨c, others, shape⟩ := List.exists_cons_of_ne_nil filled
      have isMark : c ∈ '.' :: ['e', 'E'] := by
        cases isFraction with
        | absent => exact List.mem_cons_of_mem _ (isExponent.head c (congrArg List.head? shape))
        | present _ =>
          obtain ⟨rfl, _⟩ := List.cons.inj shape
          exact List.mem_cons_self
      rw [shape, List.all_append, List.all_cons, mark c isMark, Bool.false_and, Bool.and_false]
    simp only [ofNumber?, minus_signed negative isWhole.1, notAll,
      ofNotation?_parts isWhole isFraction isExponent]
    rfl

/-- A number stands for one value. -/
theorem Number.unique {document' : Json} (isNumber : Number text document)
    (isNumber' : Number text document') : document = document' := by
  have read := ofNumber?_of_number isNumber
  rw [ofNumber?_of_number isNumber'] at read
  exact (Option.some.inj read).symm

/-- Digits are parts of a number. -/
theorem numberParts_of_digits (all : ∀ c ∈ digits, Text.isDigit c = true) :
    ∀ c ∈ digits, isNumberPart c = true :=
  fun c isIn => isNumberPart_of_digit (all c isIn)

/-- Only characters that may stand in a number stand in it. -/
theorem Number.parts (isNumber : Number text document) : ∀ c ∈ text, isNumberPart c = true := by
  have exponentParts {tail : Text} {exponent : Int} (isExponent : Exponent tail exponent) :
      ∀ c ∈ tail, isNumberPart c = true := by
    have mark : ∀ c ∈ ['e', 'E'], isNumberPart c = true :=
      List.forall_iff_forall_mem.mp (by decide)
    cases isExponent with
    | absent => nofun
    | unsigned isMark numeral =>
      exact List.forall_mem_cons.mpr ⟨mark _ isMark, numberParts_of_digits numeral.2⟩
    | positive isMark numeral | negative isMark numeral =>
      exact List.forall_mem_cons.mpr ⟨mark _ isMark,
        List.forall_mem_cons.mpr ⟨rfl, numberParts_of_digits numeral.2⟩⟩
  have signedParts (negative : Bool) {body : Text} (parts : ∀ c ∈ body, isNumberPart c = true) :
      ∀ c ∈ signed negative body, isNumberPart c = true := by
    cases negative with
    | true => exact List.forall_mem_cons.mpr ⟨rfl, parts⟩
    | false => exact parts
  cases isNumber with
  | integer negative isWhole => exact signedParts negative (numberParts_of_digits isWhole.1.2)
  | float negative isWhole isFraction isExponent _ =>
    refine signedParts negative (List.forall_mem_append.mpr ⟨numberParts_of_digits isWhole.1.2,
      List.forall_mem_append.mpr ⟨?_, exponentParts isExponent⟩⟩)
    cases isFraction with
    | absent => nofun
    | present numeral =>
      exact List.forall_mem_cons.mpr ⟨rfl, numberParts_of_digits numeral.2⟩

/-- What stands in no number is not in front of one. -/
theorem Number.head_ne {first other : Char} (isNumber : Number (first :: rest) document)
    (none : isNumberPart other = false) : first ≠ other := by
  rintro rfl
  rw [isNumber.parts first List.mem_cons_self] at none
  cases none

/-- A number has no line break. -/
theorem Number.newline_not_mem (isNumber : Number text document) : '\n' ∉ text := by
  intro isIn
  cases isNumber.parts _ isIn

/-- A number is read in front of anything that does not go on with it. -/
theorem number?_of_number (isNumber : Number text document)
    (boundary : ∀ c, rest.head? = some c → isNumberPart c = false) :
    number? (text ++ rest) = some (document, rest) := by
  obtain ⟨run, behind⟩ := Text.takeWhile_append isNumber.parts boundary
  rw [number?, run, behind, ofNumber?_of_number isNumber]
  rfl

/-! ## Writing -/

/-- The digits of a number have no zero in front. -/
theorem isWhole_ofNat (n : Nat) : IsWhole (Text.ofNat n) := by
  have numeral := Text.isNumeral_ofNat n
  refine ⟨numeral, fun zero => ?_⟩
  obtain ⟨others, shape⟩ := List.head?_eq_some_iff.mp zero
  by_contra longer
  have filled : 0 < others.length := by
    refine List.length_pos_iff.mpr ?_
    rintro rfl
    exact longer shape
  -- without the zero there are fewer digits, and they denote the same number
  have value_eq : Text.toNat others = n := by
    rw [← Text.toNat_ofNat n, shape]
    exact (Text.toNat_zeros_append 1 others).symm
  have small : n < 10 ^ others.length := by
    rw [← value_eq]
    exact Text.toNat_lt fun c isIn => numeral.2 c (shape ▸ List.mem_cons_of_mem _ isIn)
  have fewer := (Nat.length_toDigits_le_iff (by decide) filled).mpr small
  have size_eq := congrArg List.length shape
  rw [Text.ofNat, List.length_cons] at size_eq
  omega

/-- An integer is written as a number that stands for it. -/
theorem number_ofInt (value : Int) : Number (Text.ofInt value) (.integer value) := by
  cases value with
  | ofNat n =>
    have isNumber := Number.integer false (isWhole_ofNat n)
    rwa [Text.toNat_ofNat] at isNumber
  | negSucc n =>
    have isNumber := Number.integer true (isWhole_ofNat (n + 1))
    rwa [Text.toNat_ofNat] at isNumber

/-- An exponent as it is written denotes that exponent. -/
theorem exponent_exponentText (exponent : Int) :
    Exponent (Decimal.exponentText exponent) exponent := by
  have mark : 'e' ∈ ['e', 'E'] := List.mem_cons_self
  unfold Decimal.exponentText
  dsimp only
  generalize count_eq : 2 - (Text.ofNat exponent.natAbs).length = count
  have numeral := (Text.isNumeral_ofNat exponent.natAbs).zeros_append count
  have value_eq := Text.toNat_zeros_append count (Text.ofNat exponent.natAbs)
  rw [Text.toNat_ofNat] at value_eq
  split
  next negative =>
    have isExponent := Exponent.negative mark numeral
    rw [value_eq] at isExponent
    rwa [show -(exponent.natAbs : Int) = exponent by omega] at isExponent
  next notNegative =>
    have isExponent := Exponent.positive mark numeral
    rw [value_eq] at isExponent
    rwa [show (exponent.natAbs : Int) = exponent by omega] at isExponent

end Json

namespace Decimal

variable {d : Decimal} {whole fraction : Text}

/-- In the positional form no zero stands in front of the whole part, if the number is not zero or is
written without an exponent. -/
theorem isWhole_of_positional (plain : d.coefficient = 0 → d = ⟨0, 0⟩)
    (shape : d.positional = whole ++ '.' :: fraction) (numeral : whole.IsNumeral) :
    Json.IsWhole whole := by
  refine ⟨numeral, fun zero => ?_⟩
  have noPoint : '.' ∉ whole := fun isIn => by cases numeral.2 '.' isIn
  have whole_eq (behind : Text) (same : d.positional = ['0'] ++ '.' :: behind) : whole = ['0'] :=
    (Text.append_cons_inj noPoint (by decide) (shape.symm.trans same)).1
  by_cases none : d.coefficient = 0
  · exact whole_eq ['0'] (by rw [plain none]; decide)
  · have first : (Text.ofNat d.coefficient).head? ≠ some '0' := by
      intro isZero
      have single := (Json.isWhole_ofNat d.coefficient).2 isZero
      have value_eq := Text.toNat_ofNat d.coefficient
      rw [single] at value_eq
      exact none value_eq.symm
    have head_eq : d.positional.head? = some '0' := by
      rw [shape, List.head?_append_of_ne_nil _ numeral.1, zero]
    have filled := (Text.isNumeral_ofNat d.coefficient).1
    unfold positional at head_eq whole_eq
    dsimp only at head_eq whole_eq
    split at head_eq
    next noneBefore => exact whole_eq _ (by rw [if_pos noneBefore]; rfl)
    next someBefore =>
      refine absurd ?_ first
      split at head_eq
      next =>
        rwa [List.append_assoc, List.head?_append_of_ne_nil _ filled] at head_eq
      next =>
        have count : 0 < d.pointPlace.toNat := by omega
        obtain ⟨c, others, digits⟩ := List.exists_cons_of_ne_nil filled
        obtain ⟨count', isCount⟩ := Nat.exists_eq_add_one_of_ne_zero count.ne'
        rw [digits, isCount] at head_eq
        rw [digits]
        exact head_eq

end Decimal

namespace Json

open Binary64

/-- The scientific form is a number that stands for the double nearest to the decimal number. -/
theorem number_scientific (negative : Bool) (d : Decimal) :
    Number (signed negative d.scientific) (.float (ofDecimal negative d)) := by
  obtain ⟨coefficient, exponent⟩ := d
  have numeral := Text.isNumeral_ofNat coefficient
  have value_eq := Text.toNat_ofNat coefficient
  unfold Decimal.scientific Decimal.pointPlace
  dsimp only
  generalize Text.ofNat coefficient = digits at numeral value_eq
  obtain ⟨first, fraction, rfl⟩ := List.exists_cons_of_ne_nil numeral.1
  have isWhole : IsWhole [first] := by
    refine ⟨numeral.take Nat.one_pos, fun zero => ?_⟩
    rw [Option.some.inj zero]
  obtain ⟨point, point_eq, isFraction⟩ : ∃ point,
      (if fraction.isEmpty = true then [] else '.' :: fraction) = point ∧
        Fraction point fraction := by
    cases fraction with
    | nil => exact ⟨[], rfl, .absent⟩
    | cons second others =>
      refine ⟨_, rfl, .present ⟨List.cons_ne_nil _ _, fun c isIn => ?_⟩⟩
      exact numeral.2 c (List.mem_cons_of_mem _ isIn)
  have isExponent := exponent_exponentText (((first :: fraction).length : Int) + exponent - 1)
  have isNumber := Number.float negative isWhole isFraction isExponent
    (List.append_ne_nil_of_right_ne_nil _ (List.cons_ne_nil _ _))
  have exponent_eq : ((first :: fraction).length : Int) + exponent - 1 - fraction.length =
      exponent := by
    rw [List.length_cons]
    omega
  have coefficient_eq : Text.toNat ([first] ++ fraction) = coefficient := value_eq
  rw [coefficient_eq, exponent_eq] at isNumber
  show Number (signed negative ([first] ++
    (if fraction.isEmpty = true then [] else '.' :: fraction) ++ _)) _
  rwa [point_eq, List.append_assoc]

/-- A finite double is written as a number that stands for it. -/
theorem number_finite (negative : Bool) (rank : Fin rankLimit) :
    Number (number (.finite negative rank)) (.float (.finite negative rank)) := by
  have reads : nearestRank (shortest rank).numerator (shortest rank).denominator = rank :=
    beq_iff_eq.mp (readsBack_shortest rank)
  have plain : (shortest rank).coefficient = 0 → shortest rank = ⟨0, 0⟩ := by
    intro none
    have isZero : (rank : Nat) = 0 := by
      rw [← reads, Decimal.numerator, none, Nat.zero_mul]
      exact nearestRank_of_exact (powerOfTen_pos _) (by rw [Nat.zero_mul]; exact (Nat.zero_mul _).symm)
    rw [shortest, if_pos isZero]
  show Number (signed negative (shortest rank).compact) _
  unfold Decimal.compact
  split
  next =>
    obtain ⟨whole, fraction, shape, digits, decimals, same⟩ := (shortest rank).exists_positional
    have isWhole := Decimal.isWhole_of_positional plain shape digits
    have isNumber := Number.float negative isWhole (.present decimals) .absent (by simp)
    rw [List.append_nil, ← shape, Int.zero_sub] at isNumber
    rwa [← ofDecimal_eq negative ((Decimal.nearestRank_eq same).trans reads)]
  next =>
    have isNumber := number_scientific negative (shortest rank)
    rwa [ofDecimal_eq negative reads] at isNumber

end Json

end SinosLang
