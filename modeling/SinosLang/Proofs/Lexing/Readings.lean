import SinosLang.Proofs.Lexing.Lexes

/-!
# What the stream reads

A stream goes on behind every fault, so it always reads its text to the end. If it reads tokens only,
these are the tokens that the text consists of, and the other way round.

Main statements: `readings_iff` for the readings of a stream and `tokenize_eq_ok_iff` for the tokens
of a source.
-/

set_option autoImplicit false

namespace SinosLang

open Lexeme (triviaLength Parted)

namespace Stream

variable {stream : Stream} {c : Char} {later : Text} {token : Token}

/-- What is left of a text is what is skipped and what is left after that. -/
theorem length_skipTrivia (stream : Stream) :
    stream.rest.length = triviaLength false stream.rest + stream.skipTrivia.rest.length :=
  Lexes.length_eq rfl

/-- Skipping what is no lexeme stays inside the source. -/
theorem skipTrivia_inside (inside : stream.position ≤ stream.source.size) :
    stream.skipTrivia.position ≤ stream.source.size := by
  have := stream.position_add_length inside
  have := stream.length_skipTrivia
  simp only [skipTrivia, advance_position] at this ⊢
  omega

/-- Where text is left behind the trivia, the lexeme that stands there is taken. -/
theorem nextToken_eq_take (shape : stream.skipTrivia.rest = c :: later) :
    stream.nextToken = stream.skipTrivia.take (Lexeme.starting c (c :: later)) := by
  unfold nextToken
  dsimp only
  rw [shape]

/-- Only a lexeme that is a token means a token. -/
theorem found_of_meaning {lexeme : Lexeme} (read : stream.meaning lexeme = .ok token) :
    lexeme.found = .token token.kind token.value := by
  unfold meaning at read
  split at read
  next kind value isToken =>
    cases made : stream.source.span? stream.position lexeme.taken <;> rw [made] at read <;>
      cases read
    exact isToken
  next fault start length _ =>
    cases made : stream.source.span? (stream.position + start : Nat) length <;>
      rw [made] at read <;> cases read

/-- A lexeme that is a token means a token with the place where it stands. -/
theorem meaning_eq_ok_iff {lexeme : Lexeme} (inside : stream.position ≤ stream.source.size)
    (fits : ∀ kind value, lexeme.found = .token kind value → lexeme.taken ≤ stream.rest.length) :
    stream.meaning lexeme = .ok token ↔
      lexeme = ⟨token.span.length, .token token.kind token.value⟩ ∧
        token.span.index = stream.position := by
  have whole := stream.position_add_length inside
  obtain ⟨taken, found⟩ := lexeme
  unfold meaning
  cases found with
  | token kind value =>
    have made : stream.source.span? stream.position taken = .ok ⟨stream.position, taken⟩ := by
      have := fits kind value rfl
      dsimp only at this
      rw [Source.span?, if_neg (by omega)]
      rfl
    simp only [made]
    constructor
    · rintro ⟨⟩
      exact ⟨rfl, rfl⟩
    · obtain ⟨kind', value', ⟨index, length⟩⟩ := token
      rintro ⟨same, placed⟩
      cases same
      obtain rfl : index = stream.position := placed
      rfl
  | fault fault start length =>
    constructor
    · intro read
      cases made : stream.source.span? (stream.position + start : Nat) length <;>
        simp only [made] at read <;> cases read
    · rintro ⟨same, _⟩
      cases same

/-- Where text is left, a token is read exactly if a spelling of it stands behind the trivia. -/
theorem nextToken_eq_ok_iff {after : Stream} (inside : stream.position ≤ stream.source.size)
    (shape : stream.skipTrivia.rest = c :: later) :
    stream.nextToken = (.ok token, after) ↔
      ∃ spelled rest, c :: later = spelled ++ rest ∧ Spells spelled token.kind token.value ∧
        Parted spelled token.kind rest ∧
        token.span = ⟨stream.position + triviaLength false stream.rest, spelled.length⟩ ∧
        after = stream.skipTrivia.advance spelled.length := by
  have fits (kind : TokenKind) (value : Text)
      (found : (Lexeme.starting c (c :: later)).found = .token kind value) :
      (Lexeme.starting c (c :: later)).taken ≤ stream.skipTrivia.rest.length := by
    obtain ⟨spelled, rest, split, size, _⟩ := Lexeme.exists_spelled found
    have whole : (c :: later).length = spelled.length + rest.length := by
      rw [split, List.length_append]
    rw [shape]
    omega
  rw [nextToken_eq_take shape, take, Prod.mk.injEq,
    meaning_eq_ok_iff (skipTrivia_inside inside) fits]
  constructor
  · rintro ⟨⟨isToken, placed⟩, rfl⟩
    obtain ⟨spelled, rest, split, size, spells, parted⟩ := Lexeme.starting_eq_iff.mp isToken
    refine ⟨spelled, rest, split, spells, parted, ?_, ?_⟩
    · obtain ⟨_, _, ⟨index, length⟩⟩ := token
      simp only at size placed ⊢
      rw [size, placed]
      rfl
    · rw [isToken, size]
  · rintro ⟨spelled, rest, split, spells, parted, span_eq, rfl⟩
    have isToken := Lexeme.starting_eq_iff.mpr ⟨spelled, rest, split, rfl, spells, parted⟩
    rw [isToken, span_eq]
    exact ⟨⟨rfl, rfl⟩, rfl⟩

/-- The stream at a text that stands between two others. -/
def amid (name before text after : Text) : Stream :=
  startingAt (Source.ofText name (before ++ text ++ after)) before.length

/-- The stream at a text between two others has the text and the second of them before it. -/
theorem amid_rest (name before text after : Text) :
    (amid name before text after).rest = text ++ after := by
  change (before ++ text ++ after).drop before.length = text ++ after
  rw [List.append_assoc, List.drop_left]

/-- The stream at a text between two others is inside its source. -/
theorem amid_inside (name before text after : Text) :
    (amid name before text after).position ≤ (amid name before text after).source.size := by
  change before.length ≤ (before ++ text ++ after).length
  rw [List.append_assoc, List.length_append]
  exact Nat.le_add_right _ _

/-- A spelling to which nothing joins on is read as its token, whatever stands before it. -/
theorem nextToken_amid {spelled value : Text} {kind : TokenKind} (name before after : Text)
    (spells : Spells spelled kind value) (parted : Parted spelled kind after)
    (noComment : spelled = ['/'] → after.head? ≠ some '/') :
    (amid name before spelled after).nextToken =
      (.ok ⟨kind, value, ⟨before.length, spelled.length⟩⟩,
        (amid name before spelled after).advance spelled.length) := by
  have rest_eq := amid_rest name before spelled after
  have noTrivia : triviaLength false (amid name before spelled after).rest = 0 := by
    rw [rest_eq]
    exact Lexeme.triviaLength_spelled spells noComment
  have stays : (amid name before spelled after).skipTrivia = amid name before spelled after := by
    unfold skipTrivia
    rw [noTrivia]
    rfl
  obtain ⟨first, later, shape⟩ := List.exists_cons_of_ne_nil
    (List.append_ne_nil_of_left_ne_nil spells.ne_nil after)
  refine (nextToken_eq_ok_iff (amid_inside name before spelled after) ?_).mpr
    ⟨spelled, after, shape.symm, spells, parted, ?_, ?_⟩
  · rw [stays, rest_eq, shape]
  · rw [noTrivia]
    rfl
  · rw [stays]

/-- What is read within enough requests are the tokens that the text consists of. -/
theorem readingsWithin_iff {count : Nat} {tokens : List Token}
    (inside : stream.position ≤ stream.source.size) (enough : stream.rest.length ≤ count) :
    (stream.readingsWithin count).map Reading.outcome = tokens.map .ok ↔
      Lexes stream.position stream.rest tokens := by
  induction count generalizing stream tokens with
  | zero =>
    have nothing : stream.rest = [] := List.eq_nil_of_length_eq_zero (Nat.le_zero.mp enough)
    rw [nothing, Lexes.iff_of_blank rfl]
    exact eq_comm.trans List.map_eq_nil_iff
  | succ count ih =>
    unfold readingsWithin
    cases shape : stream.skipTrivia.rest with
    | nil =>
      have atEnd : stream.skipTrivia.atEnd = true := by
        rw [atEnd, shape]
        rfl
      rw [if_pos atEnd, Lexes.iff_of_blank shape]
      exact eq_comm.trans List.map_eq_nil_iff
    | cons c later =>
      have notAtEnd : ¬stream.skipTrivia.atEnd = true := by
        rw [atEnd, shape]
        exact Bool.false_ne_true
      -- the stream behind a spelling that stands behind the trivia
      have behind {spelled rest : Text} (split : c :: later = spelled ++ rest)
          (filled : spelled ≠ []) (tokens : List Token) :
          ((stream.skipTrivia.advance spelled.length).readingsWithin count).map Reading.outcome =
              tokens.map .ok ↔
            Lexes (stream.position + triviaLength false stream.rest + spelled.length) rest
              tokens := by
        have rest_eq : (stream.skipTrivia.advance spelled.length).rest = rest := by
          rw [advance_rest, shape, split, List.drop_left]
        have taken := List.length_pos_of_ne_nil filled
        have whole := stream.position_add_length inside
        have size := stream.length_skipTrivia
        rw [shape, split, List.length_append] at size
        rw [ih, rest_eq]
        · rfl
        · simp only [skipTrivia, advance_position, advance_source] at whole ⊢
          omega
        · rw [rest_eq]
          omega
      rw [if_neg notAtEnd, Lexes.iff_of_shape shape, List.map_cons]
      constructor
      · intro read
        obtain ⟨outcome, after, next⟩ : ∃ outcome after, stream.nextToken = (outcome, after) :=
          ⟨_, _, rfl⟩
        rw [next] at read
        obtain ⟨first, tokens, rfl, isToken, others⟩ := List.map_eq_cons_iff.mp read.symm
        obtain rfl : .ok first = outcome := isToken
        obtain ⟨spelled, rest, split, spells, parted, span_eq, rfl⟩ :=
          (nextToken_eq_ok_iff inside shape).mp next
        exact ⟨first, tokens, spelled, rest, rfl, split, spells, parted, span_eq,
          (behind split spells.ne_nil tokens).mp others.symm⟩
      · rintro ⟨first, tokens, spelled, rest, rfl, split, spells, parted, span_eq, lexes⟩
        have next := (nextToken_eq_ok_iff inside shape).mpr
          ⟨spelled, rest, split, spells, parted, span_eq, rfl⟩
        rw [next, List.map_cons, (behind split spells.ne_nil tokens).mpr lexes]

/-- What a stream reads are the tokens that its text consists of. -/
theorem readings_iff {tokens : List Token} (inside : stream.position ≤ stream.source.size) :
    stream.readings.map Reading.outcome = tokens.map .ok ↔
      Lexes stream.position stream.rest tokens :=
  readingsWithin_iff inside le_rfl

/-- What is read where text is left was spelled there. -/
theorem spells_of_nextToken {after : Stream} (shape : stream.skipTrivia.rest = c :: later)
    (next : stream.nextToken = (.ok token, after)) :
    ∃ spelled, Spells spelled token.kind token.value := by
  rw [nextToken_eq_take shape, take, Prod.mk.injEq] at next
  obtain ⟨spelled, _, _, _, spells, _⟩ := Lexeme.exists_spelled (found_of_meaning next.1)
  exact ⟨spelled, spells⟩

/-- Whatever is read, every token among it was spelled. -/
theorem readingsWithin_spelled {count : Nat} :
    ∀ reading ∈ stream.readingsWithin count, ∀ token, reading.outcome = .ok token →
      ∃ spelled, Spells spelled token.kind token.value := by
  induction count generalizing stream with
  | zero => exact fun _ isIn => absurd isIn List.not_mem_nil
  | succ count ih =>
    unfold readingsWithin
    split
    next => exact fun _ isIn => absurd isIn List.not_mem_nil
    next notAtEnd =>
      intro reading isIn token isToken
      obtain ⟨outcome, after, next⟩ : ∃ outcome after, stream.nextToken = (outcome, after) :=
        ⟨_, _, rfl⟩
      rw [next] at isIn
      rcases List.mem_cons.mp isIn with rfl | later
      · obtain rfl : outcome = .ok token := isToken
        cases shape : stream.skipTrivia.rest with
        | nil =>
          rw [atEnd, shape] at notAtEnd
          exact absurd rfl notAtEnd
        | cons c later => exact spells_of_nextToken shape next
      · exact ih reading later token isToken

/-- Whatever is read, the end is not among the tokens. -/
theorem readingsWithin_notEnd {count : Nat} (reading : Reading)
    (isIn : reading ∈ stream.readingsWithin count) (token : Token)
    (isToken : reading.outcome = .ok token) : token.kind ≠ .eof := by
  obtain ⟨_, spells⟩ := readingsWithin_spelled reading isIn token isToken
  exact spells.kind_ne_eof

end Stream

/-- The token that marks the end of a source. -/
def Source.endToken (source : Source) : Token where
  kind := .eof
  value := []
  span := ⟨source.size, 0⟩

namespace Tokenization

/-- The tokens of readings are those read, and the end behind them. -/
theorem result_ofReadings_eq_ok_iff {finish : Stream} {final : Token} {all : List Token}
    (ends : finish.endToken = .ok final) (readings : List Reading) :
    (ofReadings finish readings).result = .ok all ↔
      ∃ tokens, readings.map Reading.outcome = tokens.map .ok ∧ all = tokens ++ [final] := by
  induction readings generalizing all with
  | nil =>
    rw [ofReadings, ends]
    constructor
    · rintro ⟨⟩
      exact ⟨[], rfl, rfl⟩
    · rintro ⟨tokens, none, rfl⟩
      cases tokens with
      | nil => rfl
      | cons _ _ => cases none
  | cons reading readings ih =>
    obtain ⟨outcome, position⟩ := reading
    cases outcome with
    | error failure =>
      constructor
      · rintro ⟨⟩
      · rintro ⟨tokens, read, _⟩
        cases tokens <;> cases read
    | ok token =>
      have result_eq : (ofReadings finish (⟨.ok token, position⟩ :: readings)).result =
          (ofReadings finish readings).result.map (token :: ·) := by
        rw [ofReadings, result, result]
        cases (ofReadings finish readings).failure <;> rfl
      rw [result_eq]
      constructor
      · intro found
        cases rest : (ofReadings finish readings).result with
        | error failure =>
          rw [rest] at found
          cases found
        | ok later =>
          rw [rest] at found
          cases found
          obtain ⟨tokens, read, rfl⟩ := ih.mp rest
          refine ⟨token :: tokens, ?_, rfl⟩
          rw [List.map_cons, List.map_cons, read]
      · rintro ⟨tokens, read, rfl⟩
        cases tokens with
        | nil => cases read
        | cons token' tokens =>
          rw [List.map_cons, List.map_cons] at read
          injection read with same read
          cases same
          rw [ih.mpr ⟨tokens, read, rfl⟩]
          rfl

end Tokenization

/-- Behind the text of a source stands the token that marks its end. -/
theorem Source.endToken_toEnd (source : Source) :
    (Stream.startingAt source 0).toEnd.endToken = .ok source.endToken := by
  have size : (0 + source.text.length : Nat) = source.size := by
    rw [source.size_eq, Nat.zero_add]
  unfold Stream.endToken
  refine (Stream.meaning_eq_ok_iff ?_ ?_).mpr ⟨rfl, ?_⟩
  · exact size.le
  · exact fun _ _ _ => Nat.zero_le _
  · exact size.symm

/-- A source is split into tokens exactly if its text consists of tokens; the end stands behind
them. -/
theorem Source.tokenize_eq_ok_iff {source : Source} {all : List Token} :
    source.tokenize.result = .ok all ↔
      ∃ tokens, Lexes 0 source.text tokens ∧ all = tokens ++ [source.endToken] := by
  unfold Source.tokenize Stream.tokenize
  rw [Tokenization.result_ofReadings_eq_ok_iff source.endToken_toEnd]
  constructor
  · rintro ⟨tokens, read, rfl⟩
    exact ⟨tokens, (Stream.readings_iff (Nat.zero_le _)).mp read, rfl⟩
  · rintro ⟨tokens, lexes, rfl⟩
    exact ⟨tokens, (Stream.readings_iff (Nat.zero_le _)).mpr lexes, rfl⟩

end SinosLang
