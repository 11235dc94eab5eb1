import SinosLang.Proofs.Text.Delimiters
import SinosLang.Proofs.Text.Hexadecimal
import Mathlib.Tactic.SplitIfs

/-!
# Listed texts

A listing writes a text between quotes, with escapes for the quote, the backslash and what does not
print. Every escape is read as the one character that it stands for, so texts that are listed alike
are the same text, and no listed text has a newline.

Main statements: `listed_injective` and `newline_not_mem_listed`.
-/

set_option autoImplicit false

namespace SinosLang.Text

/-- Takes an escape, from behind its backslash, off the front of a listed text. -/
def listedEscape? : Text → Option (Char × Text)
  | [] => none
  | letter :: rest =>
    match letter with
    | 'n' => some ('\n', rest)
    | 'r' => some ('\r', rest)
    | 't' => some ('\t', rest)
    | 'x' => coded? 2 rest
    | 'u' => coded? 4 rest
    | 'U' => coded? 8 rest
    | _ => some (letter, rest)

/-- Takes a character off the front of a listed text. -/
def listedChar? : Text → Option (Char × Text)
  | [] => none
  | c :: rest => if c = '\\' then listedEscape? rest else some (c, rest)

/-- How a character is listed between quotes: behind a backslash as itself or as a letter, as itself, or
as its code point. -/
inductive ListedAs (quote c : Char) : Text → Prop
  | marked : c = quote ∨ c = '\\' → ListedAs quote c ['\\', c]
  | lettered {letter : Char} : (letter, c) ∈ [('n', '\n'), ('r', '\r'), ('t', '\t')] →
    ListedAs quote c ['\\', letter]
  | plain : c ≠ '\\' → c ≠ '\n' → ListedAs quote c [c]
  | coded (letter : Char) {width : Nat} : (letter, width) ∈ [('x', 2), ('u', 4), ('U', 8)] →
    c.toNat < 16 ^ width → ListedAs quote c ('\\' :: letter :: hex width c.toNat)

/-- A character is listed in one of the ways that there are. -/
theorem listedAs_listedChar (quote c : Char) : ListedAs quote c (listedChar quote c) := by
  unfold listedChar
  split_ifs with marked newline carriage tab printable small medium
  · simp only [Bool.or_eq_true, beq_iff_eq] at marked
    exact .marked marked
  · exact .lettered (by simp [eq_of_beq newline])
  · exact .lettered (by simp [eq_of_beq carriage])
  · exact .lettered (by simp [eq_of_beq tab])
  · refine .plain (fun isBackslash => marked ?_) (fun isNewline => newline (beq_iff_eq.mpr isNewline))
    rw [isBackslash, beq_self_eq_true, Bool.or_true]
  · exact .coded 'x' (by simp) small
  · exact .coded 'u' (by simp) medium
  · exact .coded 'U' (by simp) c.val.toNat_lt

/-- A quote of a listing. -/
def IsListingQuote (quote : Char) : Prop :=
  quote = '"' ∨ quote = '\x27'

variable {quote : Char} {text other : Text}

/-- A text is listed between one of the two quotes. -/
theorem isListingQuote_listingQuote (text : Text) : IsListingQuote (listingQuote text) := by
  unfold listingQuote
  split
  · exact .inl rfl
  · exact .inr rfl

/-- A character is read back from how it is listed, whatever follows. -/
theorem listedChar?_listedChar (isQuote : IsListingQuote quote) (c : Char) (rest : Text) :
    listedChar? (listedChar quote c ++ rest) = some (c, rest) := by
  have listedAs := listedAs_listedChar quote c
  generalize listedChar quote c = code at listedAs
  cases listedAs with
  | marked marked =>
    rcases marked with rfl | rfl
    · rcases isQuote with rfl | rfl <;> rfl
    · rfl
  | lettered known =>
    simp only [List.mem_cons, Prod.mk.injEq, List.not_mem_nil, or_false] at known
    rcases known with ⟨rfl, rfl⟩ | ⟨rfl, rfl⟩ | ⟨rfl, rfl⟩ <;> rfl
  | plain notBackslash _ => exact if_neg notBackslash
  | coded _ known fits =>
    simp only [List.mem_cons, Prod.mk.injEq, List.not_mem_nil, or_false] at known
    rcases known with ⟨rfl, rfl⟩ | ⟨rfl, rfl⟩ | ⟨rfl, rfl⟩ <;>
      exact coded?_hex (by decide) fits rest

/-- Texts that are listed alike are the same. -/
theorem listed_injective (same : listed text = listed other) : text = other := by
  obtain ⟨quote_eq, behind⟩ := List.cons.inj same
  rw [← quote_eq] at behind
  exact flatMap_inj (listedChar?_listedChar (isListingQuote_listingQuote text)) rfl
    (List.append_cancel_right behind)

/-- No digit of a code point is a newline. -/
theorem newline_not_mem_hex (width code : Nat) : '\n' ∉ hex width code := by
  intro isIn
  cases isSome_of_mem_hex isIn

/-- A character is listed without a line break. -/
theorem newline_not_mem_listedChar (isQuote : IsListingQuote quote) (c : Char) :
    '\n' ∉ listedChar quote c := by
  have listedAs := listedAs_listedChar quote c
  generalize listedChar quote c = code at listedAs
  cases listedAs with
  | marked marked =>
    rcases marked with rfl | rfl
    · rcases isQuote with rfl | rfl <;> decide
    · decide
  | lettered known =>
    simp only [List.mem_cons, Prod.mk.injEq, List.not_mem_nil, or_false] at known
    rcases known with ⟨rfl, _⟩ | ⟨rfl, _⟩ | ⟨rfl, _⟩ <;> decide
  | plain _ notNewline => simp [Ne.symm notNewline]
  | coded _ known _ =>
    simp only [List.mem_cons, Prod.mk.injEq, List.not_mem_nil, or_false] at known
    rcases known with ⟨rfl, rfl⟩ | ⟨rfl, rfl⟩ | ⟨rfl, rfl⟩ <;> simp [newline_not_mem_hex]

/-- A text is listed without a line break. -/
theorem newline_not_mem_listed (text : Text) : '\n' ∉ listed text := by
  have isQuote := isListingQuote_listingQuote text
  have quote_ne : '\n' ≠ listingQuote text := by
    rcases isQuote with eq | eq <;> rw [eq] <;> decide
  simp [listed, quote_ne, newline_not_mem_listedChar isQuote]

end SinosLang.Text
