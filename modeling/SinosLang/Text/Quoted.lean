import SinosLang.Text.Basic

/-!
# Quoted forms of a text

Three ways to write a text between quotes: as a string literal of the language, as a string of a
JSON document, and as a listing shows it.
-/

set_option autoImplicit false

namespace SinosLang.Text

/-- The escapes of a string literal: the letter after the backslash and the character it stands
for. -/
def escapes : List (Char × Char) :=
  [('n', '\n'), ('t', '\t'), ('r', '\r'), ('0', '\x00'), ('\\', '\\'), ('"', '"')]

/-- The character that an escape letter stands for. -/
def unescape? (letter : Char) : Option Char :=
  escapes.lookup letter

/-- The escape letter of a character that a string literal has to escape. -/
def escapeLetter? (c : Char) : Option Char :=
  (escapes.find? fun entry => entry.2 == c).map Prod.fst

/-- One character inside a string literal. -/
def literalChar (c : Char) : Text :=
  match escapeLetter? c with
  | some letter => ['\\', letter]
  | none => [c]

/-- A text as a string literal of the language. -/
def literal (text : Text) : Text :=
  '"' :: text.flatMap literalChar ++ ['"']

/-- A code point in lower-case hexadecimal, padded with zeros to a width. -/
def hex (width code : Nat) : Text :=
  let digits := Nat.toDigits 16 code
  List.replicate (width - digits.length) '0' ++ digits

/-- One character inside a string of a JSON document. -/
def jsonChar (c : Char) : Text :=
  if c == '"' then ['\\', '"']
  else if c == '\\' then ['\\', '\\']
  else if c == '\n' then ['\\', 'n']
  else if c == '\r' then ['\\', 'r']
  else if c == '\t' then ['\\', 't']
  else if c == '\x08' then ['\\', 'b']
  else if c == '\x0c' then ['\\', 'f']
  else if c.toNat < 0x20 then ['\\', 'u'] ++ hex 4 c.toNat
  else [c]

/-- A text as a string of a JSON document; characters beyond ASCII stand for themselves. -/
def json (text : Text) : Text :=
  '"' :: text.flatMap jsonChar ++ ['"']

/-- One character of a listing between the given quotes. -/
def listedChar (quote c : Char) : Text :=
  if c == quote || c == '\\' then ['\\', c]
  else if c == '\n' then ['\\', 'n']
  else if c == '\r' then ['\\', 'r']
  else if c == '\t' then ['\\', 't']
  else if isPrintable c then [c]
  else if c.toNat < 0x100 then ['\\', 'x'] ++ hex 2 c.toNat
  else if c.toNat < 0x10000 then ['\\', 'u'] ++ hex 4 c.toNat
  else ['\\', 'U'] ++ hex 8 c.toNat

/-- The quotes that a listing puts around a text: single ones, unless only those occur in it. -/
def listingQuote (text : Text) : Char :=
  if text.contains '\x27' && !text.contains '"' then '"' else '\x27'

/-- A text as a listing shows it, on one line. -/
def listed (text : Text) : Text :=
  let quote := listingQuote text
  quote :: text.flatMap (listedChar quote) ++ [quote]

end SinosLang.Text
