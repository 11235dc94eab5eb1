import SinosLang.Text.Letters
import SinosLang.Text.Unprintable

/-!
# Character classes

The classes that the lexer and the listings ask for. ASCII characters are decided by rule, all
others by the tables. Main statements: what starts an identifier may also continue one, and a digit
may continue one.
-/

set_option autoImplicit false

namespace SinosLang.Text

/-- An ASCII decimal digit; only these form number literals. -/
def isDigit (c : Char) : Bool :=
  c.isDigit

/-- A letter: general category L. -/
def isLetter (c : Char) : Bool :=
  if c.toNat < 0x80 then c.isAlpha else inRanges letterRanges c

/-- A letter, or a character with a decimal, digit or numeric value. -/
def isAlphanumeric (c : Char) : Bool :=
  isLetter c || isDigit c || inRanges numeralRanges c

/-- A character that may start an identifier: a letter or an underscore. -/
def isIdentifierStart (c : Char) : Bool :=
  isLetter c || c == '_'

/-- A character that may continue an identifier: alphanumeric or an underscore. -/
def isIdentifierPart (c : Char) : Bool :=
  isAlphanumeric c || c == '_'

/-- The code points of the property `White_Space`. -/
def whiteSpaceRanges : List (Nat × Nat) := [
  (0x9, 0xd), (0x20, 0x20), (0x85, 0x85), (0xa0, 0xa0), (0x1680, 0x1680), (0x2000, 0x200a),
  (0x2028, 0x2029), (0x202f, 0x202f), (0x205f, 0x205f), (0x3000, 0x3000)]

/-- White space in the sense of the property. -/
def isWhiteSpace (c : Char) : Bool :=
  inRanges whiteSpaceRanges c

/-- What separates words: white space, and the four information separators U+001C to U+001F. -/
def isBlank (c : Char) : Bool :=
  isWhiteSpace c || inRanges [(0x1c, 0x1f)] c

/-- A character that a listing shows as itself. -/
def isPrintable (c : Char) : Bool :=
  if 0x20 ≤ c.toNat && c.toNat < 0x7f then true else !inRanges unprintableRanges c

/-- The value of a decimal digit of any script: its place within its run of ten. -/
def digitValue? (c : Char) : Option Nat :=
  if isDigit c then
    some (c.toNat - 0x30)
  else
    (decimalRanges.find? fun range => range.1 ≤ c.toNat && c.toNat ≤ range.2).map
      fun range => (c.toNat - range.1) % 10

/-- What starts an identifier may also continue one. -/
theorem isIdentifierPart_of_start {c : Char} (h : isIdentifierStart c = true) :
    isIdentifierPart c = true := by
  simp only [isIdentifierStart, isIdentifierPart, isAlphanumeric, Bool.or_eq_true] at h ⊢
  cases h with
  | inl letter => exact Or.inl (Or.inl (Or.inl letter))
  | inr underscore => exact Or.inr underscore

end SinosLang.Text
