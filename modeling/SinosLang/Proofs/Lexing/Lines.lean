import SinosLang.Proofs.Lexing.Advance
import SinosLang.Proofs.Lexing.ReadAs
import Mathlib

/-!
# Line by line

No token and no comment reaches over the end of a line on which it ends properly, and the lexer knows
nothing of the place where it stands but its offset. So a text that is split into tokens may be
followed by a newline and any other text: what is read is what the first text reads and then what the
second one reads, with every span moved behind the newline, up to its first fault if it has one.

Main statements: `readingsWithin_forth`, a stream further on in its source reads the same further on;
`readingsWithin_line` for the readings of two texts with a newline between them; and
`tokenize_lines`.
-/

set_option autoImplicit false

namespace SinosLang

open Lexeme (triviaLength Parted)

/-- A reading moved so many characters further from the start of its source. -/
def Reading.forth (offset : Nat) (reading : Reading) : Reading where
  outcome := outcomeForth offset reading.outcome
  position := reading.position + offset

/-- Moving readings by nothing leaves them as they are. -/
theorem Reading.forth_zero : Reading.forth 0 = id := by
  funext reading
  rw [forth, outcomeForth_zero]
  rfl

/-- A tokenization moved so many characters further from the start of its source. -/
def Tokenization.forth (offset : Nat) (tokenization : Tokenization) : Tokenization where
  tokens := tokenization.tokens.map (Token.forth offset)
  failure := tokenization.failure.map (Failure.forth offset)
  position := tokenization.position + offset

/-- A tokenization that goes on behind some tokens. -/
def Tokenization.after (tokens : List Token) (later : Tokenization) : Tokenization :=
  { later with tokens := tokens ++ later.tokens }

namespace Lexeme

variable {text rest : Text}

/-- A newline behind a text does not change the trivia that end within the text. Trivia that fill the
text end with the newline, a comment as well, and others may follow. -/
theorem triviaLength_line (inComment : Bool) (text rest : Text) :
    triviaLength inComment (text ++ '\n' :: rest) =
      if triviaLength inComment text < text.length then triviaLength inComment text
      else text.length + 1 + triviaLength false rest := by
  fun_induction triviaLength inComment text with
  | case1 inComment =>
    cases inComment <;> simp [triviaLength, show Text.isBlank '\n' = true by decide, Nat.add_comm]
  | case2 c text ih =>
    rw [List.cons_append, triviaLength, if_pos rfl, ih]
    simp only [List.length_cons, Nat.add_lt_add_iff_right]
    split <;> omega
  | case3 inComment c text notIn blank ih =>
    rw [List.cons_append, triviaLength, if_neg notIn, if_pos blank, ih]
    simp only [List.length_cons, Nat.add_lt_add_iff_right]
    split <;> omega
  | case4 inComment c text notIn notBlank comment ih =>
    have filled : text ≠ [] := by
      rintro rfl
      simp at comment
    have sameHead : (text ++ '\n' :: rest).head? = text.head? := by
      rw [List.head?_append_of_ne_nil _ filled]
    rw [List.cons_append, triviaLength, if_neg notIn, if_neg notBlank, sameHead, if_pos comment, ih]
    simp only [List.length_cons, Nat.add_lt_add_iff_right]
    split <;> omega
  | case5 inComment c text notIn notBlank notComment =>
    have stillNone : ¬(c == '/' && (text ++ '\n' :: rest).head? == some '/') = true := by
      cases text with
      | nil => simp
      | cons d text => exact notComment
    rw [List.cons_append, triviaLength, if_neg notIn, if_neg notBlank, if_neg stillNone]
    exact (if_pos (Nat.succ_pos _)).symm

/-- Behind a spelling that is parted from the rest of its line there may be a newline. -/
theorem parted_line {spelled value : Text} {kind : TokenKind} (spells : Spells spelled kind value)
    (parted : Parted spelled kind text) : Parted spelled kind (text ++ '\n' :: rest) := by
  cases text with
  | nil => exact parted_of_clear spells (Text.clear_cons (by decide) rest)
  | cons c text => exact parted

end Lexeme

namespace Stream

variable {offset count count' : Nat} {first second stream : Stream}

/-- One stream stands before the same text as another, so many characters further on in a source of
its own. -/
structure Follows (offset : Nat) (first second : Stream) : Prop where
  position_eq : second.position = first.position + offset
  rest_eq : second.rest = first.rest
  inside : first.position ≤ first.source.size
  inside' : second.position ≤ second.source.size

namespace Follows

/-- Streams before the same text still are after both have advanced as far. -/
theorem advance (follows : Follows offset first second) (fits : count ≤ first.rest.length) :
    Follows offset (first.advance count) (second.advance count) := by
  have whole := first.position_add_length follows.inside
  have whole' := second.position_add_length follows.inside'
  rw [follows.rest_eq] at whole'
  refine ⟨?_, ?_, ?_, ?_⟩
  · rw [advance_position, advance_position, follows.position_eq, Nat.add_right_comm]
  · rw [advance_rest, advance_rest, follows.rest_eq]
  · rw [advance_position, advance_source]
    omega
  · rw [advance_position, advance_source]
    omega

/-- Streams before the same text still are after both have skipped what is no lexeme. -/
theorem skipTrivia (follows : Follows offset first second) :
    Follows offset first.skipTrivia second.skipTrivia := by
  unfold Stream.skipTrivia
  rw [follows.rest_eq]
  exact follows.advance (Lexeme.triviaLength_le false first.rest)

/-- Streams before the same text still are at their ends. -/
theorem toEnd (follows : Follows offset first second) : Follows offset first.toEnd second.toEnd := by
  unfold Stream.toEnd
  rw [follows.rest_eq]
  exact follows.advance le_rfl

/-- A lexeme means the same further on. -/
theorem meaning_eq (follows : Follows offset first second) {lexeme : Lexeme}
    (fits : lexeme.taken ≤ first.rest.length)
    (within : ∀ fault start length, lexeme.found = .fault fault start length →
      start + length ≤ lexeme.taken) :
    second.meaning lexeme = Reading.outcomeForth offset (first.meaning lexeme) := by
  have whole := first.position_add_length follows.inside
  have whole' := second.position_add_length follows.inside'
  rw [follows.rest_eq] at whole'
  exact meaning_forth follows.position_eq (by omega) (by omega) within

/-- The next token is the same further on. -/
theorem nextToken_eq (follows : Follows offset first second)
    (notAtEnd : ¬first.skipTrivia.atEnd = true) :
    second.nextToken.1 = Reading.outcomeForth offset first.nextToken.1 ∧
      Follows offset first.nextToken.2 second.nextToken.2 := by
  have skipped := follows.skipTrivia
  cases shape : first.skipTrivia.rest with
  | nil =>
    rw [atEnd, shape] at notAtEnd
    exact absurd rfl notAtEnd
  | cons c later =>
    have takes := Lexeme.starting_takes c later
    rw [← shape] at takes
    rw [nextToken_eq_take shape, nextToken_eq_take (skipped.rest_eq.trans shape), ← shape]
    constructor
    · refine skipped.meaning_eq takes.fits ?_
      intro fault start length isFault
      exact (takes.fault fault start length isFault).2.2
    · exact skipped.advance takes.fits

end Follows

/-- A stream further on reads the same further on, if there are enough requests. -/
theorem readingsWithin_forth (follows : Follows offset first second)
    (enough : first.rest.length ≤ count) (enough' : first.rest.length ≤ count') :
    second.readingsWithin count' = (first.readingsWithin count).map (Reading.forth offset) := by
  induction count generalizing first second count' with
  | zero =>
    have nothing : first.rest = [] := List.eq_nil_of_length_eq_zero (Nat.le_zero.mp enough)
    have nothing' : second.rest = [] := follows.rest_eq.trans nothing
    exact readingsWithin_of_atEnd (by simp [atEnd, skipTrivia, nothing'])
  | succ count ih =>
    have sameEnd : second.skipTrivia.atEnd = first.skipTrivia.atEnd := by
      rw [atEnd, atEnd, follows.skipTrivia.rest_eq]
    by_cases atEnd : first.skipTrivia.atEnd = true
    · rw [readingsWithin_of_atEnd atEnd, readingsWithin_of_atEnd (sameEnd.trans atEnd),
        List.map_nil]
    · have notAtEnd : ¬second.skipTrivia.atEnd = true := by rwa [sameEnd]
      have fewer := length_nextToken_lt follows.inside atEnd
      obtain ⟨same, follows'⟩ := follows.nextToken_eq atEnd
      obtain ⟨count', rfl⟩ : ∃ fewer, count' = fewer + 1 := ⟨count' - 1, by omega⟩
      rw [readingsWithin_succ atEnd, readingsWithin_succ notAtEnd, List.map_cons, same,
        follows'.position_eq, ih follows' (by omega) (by omega)]
      rfl

/-- The name of a source does not matter to what is read. -/
theorem readings_ofText (name other text : Text) :
    (startingAt (.ofText other text) 0).readings = (startingAt (.ofText name text) 0).readings := by
  have follows : Follows 0 (startingAt (.ofText name text) 0) (startingAt (.ofText other text) 0) :=
    ⟨rfl, rfl, Nat.zero_le _, Nat.zero_le _⟩
  have same := readingsWithin_forth follows le_rfl le_rfl
  rwa [Reading.forth_zero, List.map_id] at same

/-- Requests skip trivia first, so it does not matter whether they are skipped before. -/
theorem readingsWithin_skipTrivia (stream : Stream) :
    stream.skipTrivia.readingsWithin count = stream.readingsWithin count := by
  have skipped : stream.skipTrivia.skipTrivia = stream.skipTrivia := by
    have nothing : triviaLength false stream.skipTrivia.rest = 0 :=
      Lexeme.triviaLength_drop false stream.rest
    rw [skipTrivia, nothing]
    simp [advance]
  have same : stream.skipTrivia.nextToken = stream.nextToken := by
    rw [nextToken, nextToken, skipped]
  cases count with
  | zero => rfl
  | succ count => rw [readingsWithin, readingsWithin, skipped, same]

/-- A spelling behind the trivia is the first token that is read. -/
theorem readingsWithin_of_spells {spelled value rest : Text} {kind : TokenKind}
    (inside : stream.position ≤ stream.source.size)
    (shape : stream.skipTrivia.rest = spelled ++ rest) (spells : Spells spelled kind value)
    (parted : Parted spelled kind rest) (enough : stream.rest.length ≤ count) :
    ∃ (after : Stream) (fewer : Nat),
      after.position = stream.position + triviaLength false stream.rest + spelled.length ∧
      after.rest = rest ∧ after.position ≤ after.source.size ∧ after.rest.length ≤ fewer ∧
      stream.readingsWithin count =
        ⟨.ok ⟨kind, value, ⟨stream.position + triviaLength false stream.rest, spelled.length⟩⟩,
          after.position⟩ :: after.readingsWithin fewer := by
  obtain ⟨c, behind, isBehind⟩ := List.exists_cons_of_ne_nil
    (List.append_ne_nil_of_left_ne_nil spells.ne_nil rest)
  rw [isBehind] at shape
  have notAtEnd : ¬stream.skipTrivia.atEnd = true := by
    rw [atEnd, shape]
    exact Bool.false_ne_true
  have next : stream.nextToken = (.ok ⟨kind, value, ⟨stream.position +
      triviaLength false stream.rest, spelled.length⟩⟩, stream.skipTrivia.advance spelled.length) := by
    apply (nextToken_eq_ok_iff inside shape).mpr
    exact ⟨spelled, rest, isBehind.symm, spells, parted, rfl, rfl⟩
  have fewer := length_nextToken_lt inside notAtEnd
  have within : stream.nextToken.2.position ≤ stream.nextToken.2.source.size := by
    rw [nextToken_source]
    exact (nextToken_goesOn inside notAtEnd).inside
  rw [next] at fewer within
  dsimp only at fewer within
  obtain ⟨count, rfl⟩ : ∃ fewer, count = fewer + 1 := ⟨count - 1, by omega⟩
  refine ⟨stream.skipTrivia.advance spelled.length, count, rfl, ?_, within, by omega, ?_⟩
  · rw [advance_rest, shape, ← isBehind, List.drop_left]
  · rw [readingsWithin_succ notAtEnd, next]

/-- Before a newline a stream reads the tokens of its line, and then what the text behind the newline
reads on its own, moved there. -/
theorem readingsWithin_line {position : Nat} {text : Text} {tokens : List Token} {later : Stream}
    (lexes : Lexes position text tokens) (placed : stream.position = position)
    (rest_eq : stream.rest = text ++ '\n' :: later.rest)
    (further : later.position + offset = position + text.length + 1)
    (inside : stream.position ≤ stream.source.size)
    (inside' : later.position ≤ later.source.size) (enough : stream.rest.length ≤ count) :
    stream.readingsWithin count =
      tokens.map (fun token => ⟨.ok token, token.span.stop⟩) ++
        later.readings.map (Reading.forth offset) := by
  induction lexes generalizing stream count with
  | @done position text nothing =>
    have fills : triviaLength false text = text.length := by
      simpa using (Lexes.length_eq nothing).symm
    have skipped : triviaLength false stream.rest =
        text.length + 1 + triviaLength false later.rest := by
      rw [rest_eq, Lexeme.triviaLength_line, if_neg (by omega)]
    have behind : stream.rest.drop (text.length + 1) = later.rest := by
      rw [rest_eq, ← List.drop_drop, List.drop_left, List.drop_succ_cons, List.drop_zero]
    have follows : Follows offset later.skipTrivia stream.skipTrivia := by
      refine ⟨?_, ?_, skipTrivia_inside inside', skipTrivia_inside inside⟩
      · simp only [skipTrivia, advance_position, skipped]
        omega
      · rw [skipTrivia, advance_rest, skipped, ← List.drop_drop, behind]
        rfl
    have fewer := later.length_skipTrivia
    have fewer' := stream.length_skipTrivia
    have same := congrArg List.length follows.rest_eq
    rw [readings, ← readingsWithin_skipTrivia, ← later.readingsWithin_skipTrivia]
    exact readingsWithin_forth follows (by omega) (by omega)
  | @token position text spelled value rest kind tokens shape spells parted lexes ih =>
    have size := Lexes.length_eq shape
    have taken := List.length_pos_of_ne_nil spells.ne_nil
    rw [List.length_append] at size
    have skipped : triviaLength false stream.rest = triviaLength false text := by
      rw [rest_eq, Lexeme.triviaLength_line, if_pos (by omega)]
    have shape' : stream.skipTrivia.rest = spelled ++ (rest ++ '\n' :: later.rest) := by
      rw [skipTrivia, advance_rest, skipped, rest_eq, List.drop_append_of_le_length (by omega), shape,
        List.append_assoc]
    obtain ⟨after, fewer, place, left, within, enough', read⟩ :=
      readingsWithin_of_spells inside shape' spells (Lexeme.parted_line spells parted) enough
    rw [placed, skipped] at place read
    rw [read, ih place left (by omega) within enough', place]
    rfl

end Stream

/-- Two texts with a newline between them consist of the tokens of the one and those of the other,
moved behind the newline. -/
theorem Lexes.line {first second : Text} {tokens later : List Token} (lexes : Lexes 0 first tokens)
    (lexes' : Lexes 0 second later) :
    Lexes 0 (first ++ '\n' :: second) (tokens ++ later.map (Token.forth (first.length + 1))) := by
  have read' := (@Stream.readings_iff (.startingAt (.ofText [] second) 0) later (Nat.zero_le _)).mpr
    lexes'
  have read := @Stream.readingsWithin_line (first.length + 1) _
    (.startingAt (.ofText [] (first ++ '\n' :: second)) 0) _ _ _ (.startingAt (.ofText [] second) 0)
    lexes rfl rfl (by simp [Stream.startingAt]) (Nat.zero_le _) (Nat.zero_le _) le_rfl
  refine (@Stream.readings_iff (.startingAt (.ofText [] (first ++ '\n' :: second)) 0) _
    (Nat.zero_le _)).mp ?_
  have moved : (Stream.startingAt (.ofText [] second) 0).readings.map
      (fun reading => Reading.outcomeForth (first.length + 1) reading.outcome) =
        later.map (fun token => .ok (token.forth (first.length + 1))) := by
    have := congrArg (List.map (Reading.outcomeForth (first.length + 1))) read'
    rwa [List.map_map, List.map_map] at this
  rw [Stream.readings, read]
  simp only [List.map_append, List.map_map]
  exact congrArg (_ ++ ·) moved

namespace Tokenization

variable {offset : Nat} {finish finish' : Stream}

/-- The result of a tokenization is its tokens exactly when no failure was met. -/
theorem result_eq_ok_iff {tokenization : Tokenization} {tokens : List Token} :
    tokenization.result = .ok tokens ↔ tokenization.failure = none ∧ tokenization.tokens = tokens := by
  unfold result
  cases tokenization.failure <;> simp

/-- Tokens in front of readings are the first tokens of the tokenization. -/
theorem ofReadings_append (finish : Stream) (tokens : List Token) (places : Token → Nat)
    (readings : List Reading) :
    ofReadings finish (tokens.map (fun token => ⟨.ok token, places token⟩) ++ readings) =
      (ofReadings finish readings).after tokens := by
  induction tokens with
  | nil => rfl
  | cons token tokens ih =>
    rw [List.map_cons, List.cons_append, ofReadings]
    simp only [ih]
    rfl

/-- Readings further on make the same tokenization further on. -/
theorem ofReadings_forth (follows : Stream.Follows offset finish finish')
    (readings : List Reading) :
    ofReadings finish' (readings.map (Reading.forth offset)) =
      (ofReadings finish readings).forth offset := by
  induction readings with
  | nil =>
    have ends : finish'.endToken = Reading.outcomeForth offset finish.endToken := by
      refine follows.meaning_eq (Nat.zero_le _) ?_
      intro fault start length isFault
      cases isFault
    rw [List.map_nil, ofReadings, ofReadings, ends, follows.position_eq]
    cases finish.endToken <;> rfl
  | cons reading readings ih =>
    obtain ⟨outcome, position⟩ := reading
    cases outcome with
    | error failure => rfl
    | ok token =>
      rw [List.map_cons, ofReadings, ofReadings]
      simp only [Reading.forth, Reading.outcomeForth]
      rw [ih]
      rfl

end Tokenization

namespace Source

variable {first second : Source} {name : Text} {tokens : List Token}

/-- A text that is split into tokens, a newline and another text are split into these tokens and what
the other text is split into, moved behind the newline. -/
theorem tokenize_line (lexes : Lexes 0 first.text tokens) (name : Text) (second : Source) :
    (ofText name (first.text ++ '\n' :: second.text)).tokenize =
      (second.tokenize.forth (first.size + 1)).after tokens := by
  have size : first.size = first.text.length := first.size_eq
  have read := @Stream.readingsWithin_line (first.size + 1) _
    (.startingAt (ofText name (first.text ++ '\n' :: second.text)) 0) _ _ _ (.startingAt second 0)
    lexes rfl rfl (by simp [Stream.startingAt, size]) (Nat.zero_le _) (Nat.zero_le _) le_rfl
  have follows : Stream.Follows (first.size + 1) (Stream.startingAt second 0).toEnd
      (Stream.startingAt (ofText name (first.text ++ '\n' :: second.text)) 0).toEnd := by
    refine ⟨?_, ?_, ?_, ?_⟩
    · simp [Stream.toEnd, Stream.startingAt, size]
      omega
    · simp [Stream.toEnd, Stream.startingAt]
    · simp [Stream.toEnd, Stream.startingAt, second.size_eq]
    · simp [Stream.toEnd, Stream.startingAt]
  rw [tokenize, Stream.tokenize, Stream.readings, read, Tokenization.ofReadings_append,
    Tokenization.ofReadings_forth follows]
  rfl

/-- A source that is split into tokens may be followed by a newline and any other text. What the
other text is split into comes behind its tokens, moved behind the newline; if the other text is not
split into tokens, then for the same reason, moved as well, after the tokens that it begins with. -/
theorem tokenize_lines {first : Source} {all : List Token}
    (split : first.tokenize.result = .ok all) (name : Text) (second : Source) :
    ∃ tokens, all = tokens ++ [first.endToken] ∧
      let whole := (ofText name (first.text ++ '\n' :: second.text)).tokenize
      (∀ later, second.tokenize.result = .ok later →
        whole.result = .ok (tokens ++ later.map (Token.forth (first.size + 1)))) ∧
      ∀ failure, second.tokenize.result = .error failure →
        ∃ d, failure = .diagnostic d ∧
          whole.tokens = tokens ++ second.tokenize.tokens.map (Token.forth (first.size + 1)) ∧
          whole.result = .error (.diagnostic (d.forth (first.size + 1))) := by
  obtain ⟨tokens, lexes, rfl⟩ := tokenize_eq_ok_iff.mp split
  refine ⟨tokens, rfl, ?_⟩
  dsimp only
  rw [tokenize_line lexes name second]
  constructor
  · intro later found
    obtain ⟨none, rfl⟩ := Tokenization.result_eq_ok_iff.mp found
    apply Tokenization.result_eq_ok_iff.mpr
    simp [Tokenization.after, Tokenization.forth, none]
  · intro failure failed
    obtain ⟨d, rfl, _⟩ := tokenize_error failed
    refine ⟨d, rfl, rfl, ?_⟩
    apply Tokenization.result_eq_error_iff.mpr
    simp [Tokenization.after, Tokenization.forth, Tokenization.result_eq_error_iff.mp failed,
      Failure.forth]

/-- A line that ends with a comment, and one that ends with a character of no token. -/
theorem tokenize_lines_comment :
    (ofText [] "x // y".toList).tokenize.result =
        .ok [⟨.ident, ['x'], ⟨0, 1⟩⟩, ⟨.eof, [], ⟨6, 0⟩⟩] ∧
      let whole := (ofText [] ("x // y".toList ++ '\n' :: "1 @".toList)).tokenize
      whole.tokens = [⟨.ident, ['x'], ⟨0, 1⟩⟩, ⟨.int, ['1'], ⟨7, 1⟩⟩] ∧
        whole.result = .error (.diagnostic ⟨.unexpectedChar, ⟨9, 1⟩⟩) := by
  have split : (ofText [] "x // y".toList).tokenize.result =
      .ok [⟨.ident, ['x'], ⟨0, 1⟩⟩, ⟨.eof, [], ⟨6, 0⟩⟩] := by cbv
  have before : (ofText [] "1 @".toList).tokenize.tokens = [⟨.int, ['1'], ⟨0, 1⟩⟩] := by cbv
  have failed : (ofText [] "1 @".toList).tokenize.result =
      .error (.diagnostic ⟨.unexpectedChar, ⟨2, 1⟩⟩) := by cbv
  obtain ⟨tokens, same, _, failing⟩ := tokenize_lines split [] (ofText [] "1 @".toList)
  obtain rfl : [⟨.ident, ['x'], ⟨0, 1⟩⟩] = tokens := by
    have front := congrArg List.dropLast same
    rwa [List.dropLast_concat] at front
  obtain ⟨d, isSame, found, result⟩ := failing _ failed
  cases isSame
  rw [before] at found
  exact ⟨split, found, result⟩

end Source

end SinosLang
