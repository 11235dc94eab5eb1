import SinosLang.Text.Quoted
import Mathlib.Data.Nat.Digits.Defs

/-!
# Code points in hexadecimal

A code point that was written in hexadecimal to a width is read again, and it takes exactly the width
if it fits.

Main statement: `coded?_hex`.
-/

set_option autoImplicit false

namespace SinosLang.Text

/-- The value of a hexadecimal digit, in either case. -/
def hexValue? (c : Char) : Option Nat :=
  if 0x30 ≤ c.toNat ∧ c.toNat ≤ 0x39 then some (c.toNat - 0x30)
  else if 0x41 ≤ c.toNat ∧ c.toNat ≤ 0x46 then some (c.toNat - 0x37)
  else if 0x61 ≤ c.toNat ∧ c.toNat ≤ 0x66 then some (c.toNat - 0x57)
  else none

/-- The number that hexadecimal digits denote behind others that denote a value. -/
def ofHexBehind? (value : Nat) (digits : Text) : Option Nat :=
  digits.foldlM (fun value c => (hexValue? c).map (16 * value + ·)) value

/-- The number that hexadecimal digits denote. -/
def ofHex? (digits : Text) : Option Nat :=
  ofHexBehind? 0 digits

/-- Takes the character with a code point of so many hexadecimal digits off the front. -/
def coded? (width : Nat) (text : Text) : Option (Char × Text) :=
  (ofHex? (text.take width)).map fun code => (Char.ofNat code, text.drop width)

/-- Hexadecimal digits are read on from the value of those before them. -/
theorem ofHexBehind?_append (value : Nat) (front digits : Text) :
    ofHexBehind? value (front ++ digits) =
      (ofHexBehind? value front).bind fun value => ofHexBehind? value digits :=
  List.foldlM_append

/-- Every character that is read is a digit. -/
theorem isSome_of_mem_ofHexBehind? {digits : Text} {value code : Nat}
    (read : ofHexBehind? value digits = some code) : ∀ c ∈ digits, (hexValue? c).isSome = true := by
  induction digits generalizing value with
  | nil => exact fun _ isIn => absurd isIn List.not_mem_nil
  | cons c digits ih =>
    rw [ofHexBehind?, List.foldlM_cons] at read
    obtain ⟨next, first, later⟩ := Option.bind_eq_some_iff.mp read
    obtain ⟨digit, known, _⟩ := Option.map_eq_some_iff.mp first
    exact List.forall_mem_cons.mpr ⟨Option.isSome_iff_exists.mpr ⟨digit, known⟩, ih later⟩

/-- The digits of a number are read as the number. -/
theorem ofHex?_toDigits (n : Nat) : ofHex? (Nat.toDigits 16 n) = some n := by
  induction n using Nat.strong_induction_on with
  | h n ih =>
    have digit : ∀ value < 16, hexValue? (Nat.digitChar value) = some value := by decide
    have single (front value : Nat) (small : value < 16) :
        ofHexBehind? front [Nat.digitChar value] = some (16 * front + value) := by
      simp [ofHexBehind?, digit value small]
    rw [Nat.toDigits_eq_if (by decide)]
    split
    next small =>
      have read := single 0 n small
      rwa [Nat.mul_zero, Nat.zero_add] at read
    next large =>
      have read := ih (n / 16) (by omega)
      rw [ofHex?] at read
      rw [ofHex?, ofHexBehind?_append, read, Option.bind_some, single _ _ (Nat.mod_lt _ (by decide))]
      congr 1
      omega

/-- Zeros in front make no difference. -/
theorem ofHex?_hex (width code : Nat) : ofHex? (hex width code) = some code := by
  have zeros (count : Nat) : ofHexBehind? 0 (List.replicate count '0') = some 0 := by
    induction count with
    | zero => rfl
    | succ count ih =>
      rw [List.replicate_succ', ofHexBehind?_append, ih]
      rfl
  rw [hex, ofHex?, ofHexBehind?_append, zeros, Option.bind_some]
  exact ofHex?_toDigits code

/-- A number that fits takes the width. -/
theorem length_hex {width code : Nat} (pos : 0 < width) (fits : code < 16 ^ width) :
    (hex width code).length = width := by
  have short := (Nat.length_toDigits_le_iff (by decide) pos).mpr fits
  rw [hex, List.length_append, List.length_replicate]
  omega

/-- Every character of a number in hexadecimal digits is such a digit. -/
theorem isSome_of_mem_hex {width code : Nat} {c : Char} (isIn : c ∈ hex width code) :
    (hexValue? c).isSome = true :=
  isSome_of_mem_ofHexBehind? (ofHex?_hex width code) c isIn

/-- The code point of a character is read as the character. -/
theorem coded?_hex {width : Nat} {c : Char} (pos : 0 < width) (fits : c.toNat < 16 ^ width)
    (rest : Text) : coded? width (hex width c.toNat ++ rest) = some (c, rest) := by
  have size := length_hex pos fits
  rw [coded?, List.take_left' size, List.drop_left' size, ofHex?_hex, Option.map_some,
    Char.ofNat_toNat]

end SinosLang.Text
