import SinosLang.Token
import SinosLang.Decimal.Reading

/-!
# Lexemes

The scanners look at the front of a text and say how many characters they take and what those are:
a token, or a fault at some place among them. White space and comments between lexemes are trivia.
Nothing here knows where in a source the text stands.
-/

set_option autoImplicit false

namespace SinosLang

/-- What a scanner makes of the characters that it takes. The place of a fault is counted from the
first of them. -/
inductive Found where
  | token (kind : TokenKind) (value : Text)
  | fault (fault : Fault) (start length : Nat)
deriving DecidableEq, Repr

/-- The number of characters that a scanner takes, and what it makes of them. -/
structure Lexeme where
  taken : Nat
  found : Found
deriving DecidableEq, Repr

namespace Lexeme

/-- The characters that begin a comment. -/
def commentStart : Text :=
  ['/', '/']

/-- An integer literal has at most so many digits. -/
def maxDigits : Nat :=
  4300

/-- The number of characters of white space and comments at the front of a text. The flag says
whether the text begins inside a comment; a comment ends before the next newline. -/
def triviaLength (inComment : Bool) : Text → Nat
  | [] => 0
  | c :: rest =>
    if inComment then
      triviaLength (c != '\n') rest + 1
    else if Text.isBlank c then
      triviaLength false rest + 1
    else if c == '/' && rest.head? == some '/' then
      triviaLength true rest + 1
    else
      0

/-- The number of characters up to the next newline. -/
def commentLength (text : Text) : Nat :=
  (text.takeWhile (· != '\n')).length

/-- The longest run of identifier characters; keywords have kinds of their own. -/
def identifier (text : Text) : Lexeme :=
  let word := text.takeWhile Text.isIdentifierPart
  ⟨word.length, .token (TokenKind.ofWord word) word⟩

/-- A float literal, or what is wrong with it, given the digits before the point and the text after
it. The literal needs digits on both sides of a single point and must not overflow. -/
def fractional (whole afterPoint : Text) : Lexeme :=
  let fraction := afterPoint.takeWhile Text.isDigit
  let rest := afterPoint.dropWhile Text.isDigit
  let text := whole ++ '.' :: fraction
  if fraction.isEmpty then
    ⟨text.length, .fault .badNumber 0 text.length⟩
  else if rest.head? == some '.' then
    let excess := rest.takeWhile fun c => Text.isDigit c || c == '.'
    let length := text.length + excess.length
    ⟨length, .fault .badNumber 0 length⟩
  else if (Binary64.ofLiteral text).isInfinite then
    ⟨text.length, .fault .badNumber 0 text.length⟩
  else
    ⟨text.length, .token .float text⟩

/-- A number literal, or what is wrong with it. -/
def number (text : Text) : Lexeme :=
  let whole := text.takeWhile Text.isDigit
  match text.dropWhile Text.isDigit with
  | '.' :: afterPoint => fractional whole afterPoint
  | _ =>
    if whole.isEmpty || maxDigits < whole.length then
      ⟨whole.length, .fault .badNumber 0 whole.length⟩
    else
      ⟨whole.length, .token .int whole⟩

/-- The rest of a string literal after `taken` characters with the given content, which is kept
backwards. A backslash goes together with the character after it. -/
def stringAfter (taken : Nat) (content : Text) : Text → Lexeme
  | [] => ⟨taken, .fault .unterminatedString 0 taken⟩
  | c :: rest =>
    if c == '"' then
      ⟨taken + 1, .token .string content.reverse⟩
    else if c == '\\' then
      match rest with
      | [] => ⟨taken + 1, .fault .unterminatedString 0 (taken + 1)⟩
      | letter :: rest =>
        match Text.unescape? letter with
        | some decoded => stringAfter (taken + 2) (decoded :: content) rest
        | none => ⟨taken + 2, .fault .badEscape taken 2⟩
    else
      stringAfter (taken + 1) (c :: content) rest

/-- A string literal, or what is wrong with it; the first character is taken as its opening
quote. -/
def string (text : Text) : Lexeme :=
  stringAfter 1 [] (text.drop 1)

/-- The longest symbol at the front of a text among those of so many characters at most. -/
def symbolUpTo? (text : Text) : Nat → Option Lexeme
  | 0 => none
  | size + 1 =>
    let candidate := text.take (size + 1)
    match TokenKind.ofSymbol? candidate with
    | some kind => some ⟨candidate.length, .token kind candidate⟩
    | none => symbolUpTo? text size

/-- The longest symbol at the front of a text. -/
def symbol? (text : Text) : Option Lexeme :=
  symbolUpTo? text TokenKind.longestSymbol

/-- The lexeme at the front of a text that begins with the given character. -/
def starting (first : Char) (text : Text) : Lexeme :=
  if Text.isIdentifierStart first then
    identifier text
  else if Text.isDigit first then
    number text
  else if first == '"' then
    string text
  else
    (symbol? text).getD ⟨1, .fault .unexpectedChar 0 1⟩

end Lexeme

end SinosLang
