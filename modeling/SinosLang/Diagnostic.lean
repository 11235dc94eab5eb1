import SinosLang.Source

/-!
# Diagnostics

A diagnostic is a fault together with the span that it is about. It is shown with its line and with
carets under the span. A failure is all that can stop the lexer or the parser: a diagnostic, or one
of the causes that only a misused stream brings about.
-/

set_option autoImplicit false

namespace SinosLang

/-- What can be wrong with a program: first the faults of single lexemes, then those of their
order. -/
inductive Fault where
  | unexpectedChar
  | unterminatedString
  | badEscape
  | badNumber
  | eqChain
  | cmpChain
  | expectSemi
  | expectExpr
  | expectParenClose
  | expectName
  | expectEqual
  | expectBraceClose
  | tooDeep
deriving DecidableEq, Repr

namespace Fault

/-- All faults. -/
def all : List Fault :=
  [unexpectedChar, unterminatedString, badEscape, badNumber, eqChain, cmpChain, expectSemi,
    expectExpr, expectParenClose, expectName, expectEqual, expectBraceClose, tooDeep]

/-- The name that a fault goes by in reports. -/
def name : Fault → Text
  | unexpectedChar => "unexpectedChar".toList
  | unterminatedString => "unterminatedString".toList
  | badEscape => "badEscape".toList
  | badNumber => "badNumber".toList
  | eqChain => "eqChain".toList
  | cmpChain => "cmpChain".toList
  | expectSemi => "expectSemi".toList
  | expectExpr => "expectExpr".toList
  | expectParenClose => "expectParenClose".toList
  | expectName => "expectName".toList
  | expectEqual => "expectEqual".toList
  | expectBraceClose => "expectBraceClose".toList
  | tooDeep => "tooDeep".toList

/-- What a fault says to the author of the program. -/
def message : Fault → Text
  | unexpectedChar => "unexpected character".toList
  | unterminatedString => "unterminated string literal".toList
  | badEscape => "unknown escape sequence in string literal".toList
  | badNumber => "malformed number literal".toList
  | eqChain => "equality operators cannot be chained; use parentheses".toList
  | cmpChain => "comparison operators cannot be chained; use parentheses".toList
  | expectSemi => "expected ';'".toList
  | expectExpr => "expected an expression".toList
  | expectParenClose => "expected ')'".toList
  | expectName => "expected a name".toList
  | expectEqual => "expected '='".toList
  | expectBraceClose => "expected '\x7d'".toList
  | tooDeep => "expression nested too deeply".toList

/-- Whether a fault is found by the lexer, within one lexeme. -/
def isLexical : Fault → Bool
  | unexpectedChar | unterminatedString | badEscape | badNumber => true
  | _ => false

/-- The fault with a name. -/
def ofName? (text : Text) : Option Fault :=
  all.find? fun fault => fault.name == text

end Fault

/-- A fault and the span that it is about. -/
structure Diagnostic where
  fault : Fault
  span : Span
deriving DecidableEq, Repr

namespace Diagnostic

/-- A diagnostic on one line: name, message and span. -/
def summary (d : Diagnostic) : Text :=
  d.fault.name ++ ": ".toList ++ d.fault.message ++ " at ".toList ++ d.span.listed

/-- A diagnostic as a listing shows it. -/
def listed (d : Diagnostic) : Text :=
  "SinosError(".toList ++ d.fault.name ++ ", ".toList ++ d.span.listed ++ [')']

/-- How many carets fit under a span on its line; there is always one. -/
def caretCount (lineLength : Nat) (column : Int) (length : Nat) : Nat :=
  (max 1 (min (length : Int) (lineLength - column + 1))).toNat

/-- The display of a diagnostic: source name, place and message, the line, and carets under the part
of the span that is on this line. -/
def render (source : Source) (d : Diagnostic) : Text :=
  let (line, column) := source.lineColumn d.span.index
  let lineText := source.lineText line
  let carets := caretCount lineText.length column d.span.length
  Text.joinLines [
    source.name ++ ':' :: Text.ofNat line ++ ':' :: Text.ofInt column ++ ": error: ".toList ++
      d.fault.message,
    lineText,
    List.replicate (column - 1).toNat ' ' ++ List.replicate carets '^']

end Diagnostic

/-- What can stop the lexer or the parser. A fresh parse of a text only ever meets diagnostics; a
stream that is read at its end or that starts beyond it brings about the other two causes, and the
last one stands behind the depth bound of the parser, which is never reached. -/
inductive Failure where
  | diagnostic (d : Diagnostic)
  | badRange (error : RangeError)
  | readPastEnd (position : Nat)
  | depthExhausted
deriving DecidableEq, Repr

/-- The words for a failure. -/
def Failure.message : Failure → Text
  | .diagnostic d => d.summary
  | .badRange error => error.message
  | .readPastEnd position =>
    "CharacterStreamError: Attempted to read past end of source at position=<".toList ++
      Text.ofNat position ++ ['>']
  | .depthExhausted => "nesting exceeds the depth bound".toList

end SinosLang
