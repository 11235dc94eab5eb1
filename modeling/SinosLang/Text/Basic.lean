import SinosLang.Text.Class

/-!
# Texts

A text is the list of its characters, so offsets and lengths count characters. A character is a
Unicode scalar value, so every text has a UTF-8 encoding; half of a surrogate pair, which has none,
is not a character. This module holds what the rest of the library does with texts: writing numbers,
splitting into lines and words, trimming, and joining. Main statement: splitting at newlines loses
nothing, joining the lines with newlines gives the text back.
-/

set_option autoImplicit false

namespace SinosLang

/-- A text is the list of its characters, each of them a Unicode scalar value. -/
abbrev Text := List Char

namespace Text

/-- The decimal digits of a number, without leading zeros. -/
def ofNat (n : Nat) : Text :=
  Nat.toDigits 10 n

/-- The decimal digits of a number, after a minus sign if it is negative. -/
def ofInt : Int → Text
  | .ofNat n => ofNat n
  | .negSucc n => '-' :: ofNat (n + 1)

/-- The number that a run of ASCII digits denotes; the empty run denotes zero. -/
def toNat (digits : Text) : Nat :=
  digits.foldl (fun value c => 10 * value + (c.toNat - 0x30)) 0

/-- The texts with a separator between each two. -/
def join (separator : Text) (parts : List Text) : Text :=
  List.intercalate separator parts

/-- The lines of a text, joined by newlines. -/
def joinLines (lines : List Text) : Text :=
  join ['\n'] lines

/-- A text cut at every character of a class; there is one more part than there are cuts. -/
def splitWhere (cuts : Char → Bool) : Text → List Text
  | [] => [[]]
  | c :: rest =>
    if cuts c then
      [] :: splitWhere cuts rest
    else
      match splitWhere cuts rest with
      | [] => [[c]]
      | part :: parts => (c :: part) :: parts

/-- The lines of a text: its parts between newlines, the last one possibly empty. -/
def lines (text : Text) : List Text :=
  splitWhere (· == '\n') text

/-- The words of a text: its longest parts without blanks. -/
def words (text : Text) : List Text :=
  (splitWhere isBlank text).filter fun word => !word.isEmpty

/-- A text without the characters of a class at both of its ends. -/
def trimWhere (margin : Char → Bool) (text : Text) : Text :=
  ((text.dropWhile margin).reverse.dropWhile margin).reverse

/-- A text without the blanks at both of its ends. -/
def trim (text : Text) : Text :=
  trimWhere isBlank text

/-- A text padded on the right with spaces to a width. -/
def padRight (width : Nat) (text : Text) : Text :=
  text ++ List.replicate (width - text.length) ' '

/-- Line ends made uniform: a carriage return, with the newline that may follow it, becomes one
newline. -/
def unifyNewlines : Text → Text
  | [] => []
  | '\r' :: '\n' :: rest => '\n' :: unifyNewlines rest
  | '\r' :: rest => '\n' :: unifyNewlines rest
  | c :: rest => c :: unifyNewlines rest

/-- The lines that a reader of typed input gets: those between newlines, and what follows the last
newline if it is not empty. -/
def inputLines (text : Text) : List Text :=
  let parts := lines (unifyNewlines text)
  if parts.getLast? == some [] then parts.dropLast else parts

/-- A text is split into one part at least. -/
theorem splitWhere_ne_nil (cuts : Char → Bool) (text : Text) : splitWhere cuts text ≠ [] := by
  cases text with
  | nil => simp [splitWhere]
  | cons c rest =>
    simp only [splitWhere]
    split
    · simp
    · split <;> simp

/-- Joining the lines of a text with newlines gives the text back. -/
theorem joinLines_lines (text : Text) : joinLines (lines text) = text := by
  induction text with
  | nil => simp [joinLines, join, lines, splitWhere, List.intercalate]
  | cons c rest ih =>
    simp only [joinLines, join, lines, splitWhere] at ih ⊢
    split
    next newline =>
      have isNewline : c = '\n' := by simpa using newline
      cases parts : splitWhere (fun x => x == '\n') rest with
      | nil => exact absurd parts (splitWhere_ne_nil _ _)
      | cons part others =>
        rw [parts] at ih
        simp [List.intercalate, List.intersperse, isNewline] at ih ⊢
        exact ih
    next other =>
      cases parts : splitWhere (fun x => x == '\n') rest with
      | nil => exact absurd parts (splitWhere_ne_nil _ _)
      | cons part others =>
        rw [parts] at ih
        cases others with
        | nil => simpa [List.intercalate, List.intersperse] using ih
        | cons next more => simpa [List.intercalate, List.intersperse] using ih

end Text

end SinosLang
