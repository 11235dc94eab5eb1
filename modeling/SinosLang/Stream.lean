import SinosLang.Lexeme

/-!
# Character streams

A stream is a source with a place in it. Every operation answers with the stream after it, also when
it fails, so lexing can go on behind a fault. What the lexer finds from some place on, faults
included, is the list of readings; the tokens are those before the first fault.
-/

set_option autoImplicit false

namespace SinosLang

/-- A place in a source and the text from there on. The place may lie beyond the end, where no text
is left. -/
structure Stream where
  source : Source
  position : Nat
  rest : Text := source.text.drop position
  rest_eq : rest = source.text.drop position := by rfl

namespace Stream

/-- The stream that stands at an offset of a source. -/
def startingAt (source : Source) (position : Nat) : Stream where
  source := source
  position := position

/-- The stream after so many more characters. -/
def advance (stream : Stream) (count : Nat) : Stream where
  source := stream.source
  position := stream.position + count
  rest := stream.rest.drop count
  rest_eq := by rw [stream.rest_eq, List.drop_drop]

/-- Whether no text is left. -/
def atEnd (stream : Stream) : Bool :=
  stream.rest.isEmpty

/-- Takes one character; fails at the end. -/
def next (stream : Stream) : Except Failure Char × Stream :=
  match stream.rest with
  | [] => (.error (.readPastEnd stream.position), stream)
  | c :: _ => (.ok c, stream.advance 1)

/-- The character at a distance from the current place, which may be negative. -/
def peek? (stream : Stream) (offset : Int) : Option Char :=
  let place := stream.position + offset
  if place < 0 then none else stream.source.text[place.toNat]?

/-- Whether the text from here on begins with the given one. Beyond the end nothing does. -/
def startsWith (stream : Stream) (text : Text) : Bool :=
  stream.position ≤ stream.source.size && text.isPrefixOf stream.rest

/-- The span from an offset up to the current place. -/
def spanFrom (stream : Stream) (start : Int) : Except Failure Span :=
  (stream.source.span? start (stream.position - start)).mapError .badRange

/-- The stream after the white space and the comments that stand here. -/
def skipTrivia (stream : Stream) : Stream :=
  stream.advance (Lexeme.triviaLength false stream.rest)

/-- The stream at the next newline, or at the end. -/
def skipComment (stream : Stream) : Stream :=
  stream.advance (Lexeme.commentLength stream.rest)

/-- The token or the diagnostic that a lexeme means at this place. -/
def meaning (stream : Stream) (lexeme : Lexeme) : Except Failure Token :=
  match lexeme.found with
  | .token kind value =>
    ((stream.source.span? stream.position lexeme.taken).mapError .badRange).map
      fun span => ⟨kind, value, span⟩
  | .fault fault start length =>
    ((stream.source.span? (stream.position + start : Nat) length).mapError .badRange).bind
      fun span => .error (.diagnostic ⟨fault, span⟩)

/-- Takes the characters of a lexeme and answers with its meaning. -/
def take (stream : Stream) (lexeme : Lexeme) : Except Failure Token × Stream :=
  (stream.meaning lexeme, stream.advance lexeme.taken)

/-- Takes the longest run of identifier characters. -/
def scanIdentifier (stream : Stream) : Except Failure Token × Stream :=
  stream.take (Lexeme.identifier stream.rest)

/-- Takes a number literal. -/
def scanNumber (stream : Stream) : Except Failure Token × Stream :=
  stream.take (Lexeme.number stream.rest)

/-- Takes a string literal, whatever its first character is; fails at the end. -/
def scanString (stream : Stream) : Except Failure Token × Stream :=
  match stream.rest with
  | [] => (.error (.readPastEnd stream.position), stream)
  | _ :: _ => stream.take (Lexeme.string stream.rest)

/-- Takes the longest symbol, if one stands here. -/
def matchSymbol (stream : Stream) : Except Failure (Option Token) × Stream :=
  match Lexeme.symbol? stream.rest with
  | none => (.ok none, stream)
  | some lexeme =>
    let (outcome, after) := stream.take lexeme
    (outcome.map some, after)

/-- The token that marks the end of the text, of no length, at the current place. -/
def endToken (stream : Stream) : Except Failure Token :=
  stream.meaning ⟨0, .token .eof []⟩

/-- Takes the next token, after any trivia; at the end it is the one that marks the end. -/
def nextToken (stream : Stream) : Except Failure Token × Stream :=
  let start := stream.skipTrivia
  match start.rest with
  | [] => (start.endToken, start)
  | c :: _ => start.take (Lexeme.starting c start.rest)

/-- Advancing stays in the source. -/
@[simp]
theorem advance_source (stream : Stream) (count : Nat) :
    (stream.advance count).source = stream.source := rfl

/-- Advancing moves the position by the count. -/
@[simp]
theorem advance_position (stream : Stream) (count : Nat) :
    (stream.advance count).position = stream.position + count := rfl

/-- Advancing drops as many characters of the rest. -/
@[simp]
theorem advance_rest (stream : Stream) (count : Nat) :
    (stream.advance count).rest = stream.rest.drop count := rfl

/-- The position and the text that is left make up the source, unless the stream starts beyond its
end. -/
theorem position_add_length (stream : Stream) (inside : stream.position ≤ stream.source.size) :
    stream.position + stream.rest.length = stream.source.size := by
  rw [stream.rest_eq, List.length_drop, ← stream.source.size_eq]
  omega

end Stream

/-- What one request for a token brought before the end of the text: the token or the failure, and
the place reached. -/
structure Reading where
  outcome : Except Failure Token
  position : Nat

/-- The tokens up to the end or to the first failure, and the place reached. -/
structure Tokenization where
  tokens : List Token
  failure : Option Failure
  position : Nat

namespace Stream

/-- At most so many readings from here on. -/
def readingsWithin : Nat → Stream → List Reading
  | 0, _ => []
  | count + 1, stream =>
    if stream.skipTrivia.atEnd then
      []
    else
      let (outcome, after) := stream.nextToken
      ⟨outcome, after.position⟩ :: readingsWithin count after

/-- All readings from here on, going on behind failures. Each takes a character, so there are no
more of them than characters. -/
def readings (stream : Stream) : List Reading :=
  readingsWithin stream.rest.length stream

/-- The stream at the end of the text. -/
def toEnd (stream : Stream) : Stream :=
  stream.advance stream.rest.length

end Stream

namespace Tokenization

/-- The tokens of a list of readings up to the first failure, with the end of the stream behind
them. -/
def ofReadings (finish : Stream) : List Reading → Tokenization
  | [] =>
    match finish.endToken with
    | .ok token => ⟨[token], none, finish.position⟩
    | .error failure => ⟨[], some failure, finish.position⟩
  | reading :: readings =>
    match reading.outcome with
    | .ok token =>
      let later := ofReadings finish readings
      { later with tokens := token :: later.tokens }
    | .error failure => ⟨[], some failure, reading.position⟩

/-- The tokens, if there was no failure. -/
def result (tokenization : Tokenization) : Except Failure (List Token) :=
  match tokenization.failure with
  | none => .ok tokenization.tokens
  | some failure => .error failure

end Tokenization

/-- The tokens from here on. -/
def Stream.tokenize (stream : Stream) : Tokenization :=
  Tokenization.ofReadings stream.toEnd stream.readings

/-- The tokens of a source, the one that marks its end included. -/
def Source.tokenize (source : Source) : Tokenization :=
  (Stream.startingAt source 0).tokenize

end SinosLang
