import SinosLang.Proofs.Lexing.Readings

/-!
# Every reading goes on

Wherever more than trivia is left of a text, the lexer takes at least one character of it and none
beyond its end. So every span that it asks for lies inside the source, and it fails with a diagnostic
or not at all. The readings of a stream follow each other without a gap or an overlap: each starts
behind the one before it and says so, whether it is a token or a fault.

Main statements: `readings_chain` for the readings of a stream and `tokenize_error` for the failure
of a tokenization.
-/

set_option autoImplicit false

namespace SinosLang

/-- A failure that is about a source of some size: a diagnostic with a span inside of it, which is
empty only at its end. -/
def Failure.IsDiagnosis (size : Nat) (failure : Failure) : Prop :=
  ∃ d, failure = .diagnostic d ∧ d.span.stop ≤ size ∧ (d.span.length = 0 → d.span.index = size)

/-- A diagnostic about characters of a source. -/
theorem Failure.isDiagnosis_of_pos {size : Nat} {d : Diagnostic} (inside : d.span.stop ≤ size)
    (filled : 0 < d.span.length) : (Failure.diagnostic d).IsDiagnosis size :=
  ⟨d, rfl, inside, fun empty => absurd empty (Nat.ne_of_gt filled)⟩

namespace Lexeme

/-- A lexeme takes some of so many characters, and a fault in it is one of lexemes and about some of
those. -/
structure Takes (size : Nat) (lexeme : Lexeme) : Prop where
  filled : 0 < lexeme.taken
  fits : lexeme.taken ≤ size
  fault : ∀ fault start length, lexeme.found = .fault fault start length →
    fault.isLexical = true ∧ 0 < length ∧ start + length ≤ lexeme.taken

variable {size taken : Nat} {first : Char} {text : Text}

/-- A lexeme that is a token takes what it is made of, and has no fault in it. -/
theorem takes_token {kind : TokenKind} {value : Text} (filled : 0 < taken) (fits : taken ≤ size) :
    Takes size ⟨taken, .token kind value⟩ :=
  ⟨filled, fits, fun _ _ _ isFault => by cases isFault⟩

/-- A fault in all the characters that are taken. -/
theorem takes_fault {fault : Fault} (isLexical : fault.isLexical = true) (filled : 0 < taken)
    (fits : taken ≤ size) : Takes size ⟨taken, .fault fault 0 taken⟩ := by
  refine ⟨filled, fits, ?_⟩
  rintro _ _ _ ⟨⟩
  exact ⟨isLexical, filled, (Nat.zero_add _).le⟩

/-- A word takes a character at least, and no more than there are. -/
theorem identifier_takes (start : Text.isIdentifierStart first = true) :
    (identifier (first :: text)).Takes (first :: text).length := by
  refine takes_token ?_ (List.takeWhile_prefix _).length_le
  rw [List.takeWhile_cons_of_pos (Text.isIdentifierPart_of_start start)]
  exact Nat.succ_pos _

/-- A number with a point takes a character at least, and no more than there are. -/
theorem fractional_takes (whole afterPoint : Text) :
    (fractional whole afterPoint).Takes (whole.length + 1 + afterPoint.length) := by
  unfold fractional
  have split := congrArg List.length (@List.takeWhile_append_dropWhile _ Text.isDigit afterPoint)
  rw [List.length_append] at split
  generalize afterPoint.takeWhile Text.isDigit = fraction at split ⊢
  generalize afterPoint.dropWhile Text.isDigit = rest at split ⊢
  have length_eq : (whole ++ '.' :: fraction).length = whole.length + 1 + fraction.length := by
    rw [List.length_append, List.length_cons]
    omega
  dsimp only
  split
  next => exact takes_fault rfl (by omega) (by omega)
  next =>
    split
    next =>
      have := (List.takeWhile_prefix (l := rest) fun c => Text.isDigit c || c == '.').length_le
      exact takes_fault rfl (by omega) (by omega)
    next =>
      split
      next => exact takes_fault rfl (by omega) (by omega)
      next => exact takes_token (by omega) (by omega)

/-- A number takes a character at least, and no more than there are. -/
theorem number_takes (digit : Text.isDigit first = true) :
    (number (first :: text)).Takes (first :: text).length := by
  unfold number
  have split := congrArg List.length
    (@List.takeWhile_append_dropWhile _ Text.isDigit (first :: text))
  have filled : 0 < ((first :: text).takeWhile Text.isDigit).length := by
    rw [List.takeWhile_cons_of_pos digit]
    exact Nat.succ_pos _
  rw [List.length_append] at split
  generalize (first :: text).takeWhile Text.isDigit = whole at split filled ⊢
  generalize (first :: text).dropWhile Text.isDigit = behind at split ⊢
  rw [← split]
  split
  next afterPoint =>
    have := fractional_takes whole afterPoint
    rwa [List.length_cons, Nat.add_comm afterPoint.length, ← Nat.add_assoc]
  next =>
    dsimp only
    split
    next => exact takes_fault rfl filled (Nat.le_add_right _ _)
    next => exact takes_token filled (Nat.le_add_right _ _)

/-- Each round of the scanner of strings takes characters that are still there. -/
theorem stringAfter_takes {before : Text} (filled : 0 < taken) :
    (stringAfter taken before text).Takes (taken + text.length) := by
  fun_induction stringAfter taken before text with
  | case1 => exact takes_fault rfl filled (Nat.le_add_right _ _)
  | case2 taken before c rest _ =>
    exact takes_token (Nat.succ_pos _) (by rw [List.length_cons]; omega)
  | case3 taken before c _ _ =>
    exact takes_fault rfl (Nat.succ_pos _) le_rfl
  | case4 taken before c _ _ letter rest decoded _ ih =>
    have := ih (by omega)
    rwa [List.length_cons, List.length_cons, Nat.add_comm rest.length 1, Nat.add_right_comm,
      ← Nat.add_assoc, ← Nat.add_assoc]
  | case5 taken before c _ _ letter rest _ =>
    refine ⟨Nat.succ_pos _, by simp only [List.length_cons]; omega, ?_⟩
    rintro _ _ _ ⟨⟩
    exact ⟨rfl, Nat.succ_pos _, le_rfl⟩
  | case6 taken before c rest _ _ ih =>
    have := ih (by omega)
    rwa [List.length_cons, Nat.add_comm rest.length, ← Nat.add_assoc]

/-- A symbol takes some characters of the text at whose front it stands. -/
theorem symbol?_takes {lexeme : Lexeme} (found : symbol? text = some lexeme) :
    lexeme.Takes text.length := by
  have filled : ∀ entry ∈ TokenKind.symbols, 0 < entry.1.length := by decide
  obtain ⟨spelled, kind, rest, rfl, isSymbol, rfl, _⟩ := exists_of_symbol? found
  exact takes_token (filled _ isSymbol) (by simp)

/-- The lexeme at the front of a text takes some of its characters. -/
theorem starting_takes (first : Char) (text : Text) :
    (starting first (first :: text)).Takes (first :: text).length := by
  unfold starting
  split
  next start => exact identifier_takes start
  next =>
    split
    next digit => exact number_takes digit
    next =>
      split
      next =>
        have := @stringAfter_takes 1 text [] Nat.one_pos
        rwa [Nat.add_comm] at this
      next =>
        cases matched : symbol? (first :: text) with
        | none => exact takes_fault rfl Nat.one_pos (Nat.succ_pos _)
        | some lexeme => exact symbol?_takes matched

end Lexeme

/-- What a reading finds from a position on: a token up to the place that it reaches, or a diagnostic
of the lexer about characters that it has passed. -/
structure Reading.GoesOn (size position : Nat) (reading : Reading) : Prop where
  forward : position < reading.position
  inside : reading.position ≤ size
  token : ∀ token, reading.outcome = .ok token →
    position ≤ token.span.index ∧ 0 < token.span.length ∧ token.span.stop = reading.position
  failure : ∀ failure, reading.outcome = .error failure →
    ∃ d, failure = .diagnostic d ∧ d.fault.isLexical = true ∧ 0 < d.span.length ∧
      d.span.stop ≤ reading.position

/-- Readings that go on from a position, each from the place that the one before it has reached. -/
inductive Reading.Chain (size : Nat) : Nat → List Reading → Prop
  | nil {position : Nat} : position ≤ size → Chain size position []
  | cons {position : Nat} {reading : Reading} {readings : List Reading} :
    reading.GoesOn size position → Chain size reading.position readings →
    Chain size position (reading :: readings)

namespace Reading.Chain

variable {size position : Nat} {reading : Reading} {readings : List Reading}

/-- A chain starts inside the source. -/
theorem position_le (chain : Chain size position readings) : position ≤ size := by
  cases chain with
  | nil le => exact le
  | cons goesOn _ => exact goesOn.forward.le.trans goesOn.inside

/-- Every reading of a chain goes on from where the chain starts. -/
theorem goesOn (chain : Chain size position readings) :
    ∀ reading ∈ readings, reading.GoesOn size position := by
  induction chain with
  | nil => exact fun _ isIn => absurd isIn List.not_mem_nil
  | @cons position reading readings goesOn _ ih =>
    refine List.forall_mem_cons.mpr ⟨goesOn, fun later isIn => ?_⟩
    have further := ih later isIn
    refine ⟨goesOn.forward.trans further.forward, further.inside, fun token isToken => ?_,
      further.failure⟩
    obtain ⟨le, rest⟩ := further.token token isToken
    exact ⟨goesOn.forward.le.trans le, rest⟩

end Reading.Chain

/-- The diagnostic moved so many characters further from the start of its source. -/
def Diagnostic.forth (offset : Nat) (d : Diagnostic) : Diagnostic :=
  { d with span := d.span.forth offset }

/-- The failure moved so many characters further from the start of its source, if it is about
characters of it. -/
def Failure.forth (offset : Nat) : Failure → Failure
  | .diagnostic d => .diagnostic (d.forth offset)
  | failure => failure

/-- What a request for a token brings, moved so many characters further from the start. -/
def Reading.outcomeForth (offset : Nat) : Except Failure Token → Except Failure Token
  | .ok token => .ok (token.forth offset)
  | .error failure => .error (failure.forth offset)

/-- Moving an outcome by nothing leaves it as it is. -/
theorem Reading.outcomeForth_zero (outcome : Except Failure Token) :
    outcomeForth 0 outcome = outcome := by
  cases outcome with
  | ok token => rfl
  | error failure => cases failure <;> rfl

namespace Stream

variable {stream : Stream}

/-- A lexeme means the same in two sources that have room for it, at the place where it stands. -/
theorem meaning_forth {first second : Stream} {offset : Nat} {lexeme : Lexeme}
    (position_eq : second.position = first.position + offset)
    (inside : first.position + lexeme.taken ≤ first.source.size)
    (inside' : second.position + lexeme.taken ≤ second.source.size)
    (within : ∀ fault start length, lexeme.found = .fault fault start length →
      start + length ≤ lexeme.taken) :
    second.meaning lexeme = Reading.outcomeForth offset (first.meaning lexeme) := by
  have spans {start length : Nat} (among : start + length ≤ lexeme.taken) :
      first.source.span? (first.position + start : Nat) length =
          .ok ⟨first.position + start, length⟩ ∧
        second.source.span? (second.position + start : Nat) length =
          .ok ⟨first.position + start + offset, length⟩ := by
    rw [Source.span?, Source.span?, if_neg (by omega), if_neg (by omega), position_eq,
      Nat.add_right_comm]
    exact ⟨rfl, rfl⟩
  unfold meaning
  split
  next kind value isToken =>
    obtain ⟨span_eq, span_eq'⟩ := @spans 0 lexeme.taken (Nat.zero_add _).le
    rw [Nat.add_zero] at span_eq span_eq'
    rw [span_eq, span_eq']
    rfl
  next fault start length isFault =>
    obtain ⟨span_eq, span_eq'⟩ := spans (within fault start length isFault)
    rw [span_eq, span_eq']
    rfl

/-- Where text is left behind the trivia, the next reading goes on. -/
theorem nextToken_goesOn (inside : stream.position ≤ stream.source.size)
    (notAtEnd : ¬stream.skipTrivia.atEnd = true) :
    Reading.GoesOn stream.source.size stream.position
      ⟨stream.nextToken.1, stream.nextToken.2.position⟩ := by
  cases shape : stream.skipTrivia.rest with
  | nil =>
    rw [atEnd, shape] at notAtEnd
    exact absurd rfl notAtEnd
  | cons c later =>
    have inside' := skipTrivia_inside inside
    have whole := stream.skipTrivia.position_add_length inside'
    have behind : stream.position ≤ stream.skipTrivia.position := Nat.le_add_right _ _
    have source_eq : stream.skipTrivia.source = stream.source := rfl
    have takes := Lexeme.starting_takes c later
    rw [nextToken_eq_take shape]
    rw [source_eq, shape] at whole
    generalize Lexeme.starting c (c :: later) = lexeme at takes ⊢
    generalize stream.skipTrivia = start at whole behind source_eq ⊢
    obtain ⟨taken, found⟩ := lexeme
    obtain ⟨filled, fits, fault⟩ := takes
    dsimp only at filled fits fault
    rw [← source_eq] at whole ⊢
    refine ⟨?_, ?_, ?_, ?_⟩
    · simp only [take, advance_position]
      omega
    · simp only [take, advance_position]
      omega
    · intro token isToken
      simp only [take, meaning] at isToken
      cases found with
      | token kind value =>
        simp only at isToken
        cases made : start.source.span? start.position taken with
        | error _ =>
          rw [made] at isToken
          cases isToken
        | ok span =>
          rw [made] at isToken
          cases isToken
          obtain ⟨_, index_eq, length_eq⟩ := Source.span?_eq_ok made
          simp only [take, advance_position, Span.stop]
          omega
      | fault kind place length =>
        simp only at isToken
        cases made : start.source.span? (start.position + place : Nat) length <;>
          rw [made] at isToken <;> cases isToken
    · intro failure isFailure
      simp only [take, meaning] at isFailure
      cases found with
      | token kind value =>
        have made : start.source.span? start.position taken = .ok ⟨start.position, taken⟩ := by
          rw [Source.span?, if_neg (by omega)]
          rfl
        simp only [made] at isFailure
        cases isFailure
      | fault kind place length =>
        obtain ⟨isLexical, some, within⟩ := fault kind place length rfl
        have made : start.source.span? (start.position + place : Nat) length =
            .ok ⟨start.position + place, length⟩ := by
          rw [Source.span?, if_neg (by omega)]
          rfl
        simp only [made] at isFailure
        cases isFailure
        refine ⟨_, rfl, isLexical, some, ?_⟩
        simp only [take, advance_position, Span.stop]
        omega

/-- A fault that a lexeme means does not lie before the lexeme. -/
theorem position_le_of_meaning {lexeme : Lexeme} {d : Diagnostic}
    (failed : stream.meaning lexeme = .error (.diagnostic d)) : stream.position ≤ d.span.index := by
  unfold meaning at failed
  split at failed
  next =>
    cases made : stream.source.span? stream.position lexeme.taken <;> rw [made] at failed <;>
      cases failed
  next fault start length _ =>
    cases made : stream.source.span? (stream.position + start : Nat) length with
    | error error =>
      rw [made] at failed
      cases failed
    | ok span =>
      rw [made] at failed
      cases failed
      obtain ⟨_, index_eq, _⟩ := Source.span?_eq_ok made
      dsimp only
      omega

/-- The next reading finds no fault before the place where it starts. -/
theorem position_le_of_nextToken {d : Diagnostic} (notAtEnd : ¬stream.skipTrivia.atEnd = true)
    (failed : stream.nextToken.1 = .error (.diagnostic d)) : stream.position ≤ d.span.index := by
  cases shape : stream.skipTrivia.rest with
  | nil =>
    rw [atEnd, shape] at notAtEnd
    exact absurd rfl notAtEnd
  | cons c later =>
    rw [nextToken_eq_take shape] at failed
    have behind : stream.position ≤ stream.skipTrivia.position := Nat.le_add_right _ _
    exact behind.trans (position_le_of_meaning failed)

/-- A request for a token stays in the source. -/
theorem nextToken_source (stream : Stream) : stream.nextToken.2.source = stream.source := by
  unfold nextToken
  dsimp only
  split <;> rfl

/-- Where text is left behind the trivia, there is less of it behind the next reading. -/
theorem length_nextToken_lt (inside : stream.position ≤ stream.source.size)
    (notAtEnd : ¬stream.skipTrivia.atEnd = true) :
    stream.nextToken.2.rest.length < stream.rest.length := by
  have goesOn := nextToken_goesOn inside notAtEnd
  have forward : stream.position < stream.nextToken.2.position := goesOn.forward
  have whole := stream.position_add_length inside
  have whole' := stream.nextToken.2.position_add_length (by
    rw [nextToken_source]
    exact goesOn.inside)
  rw [nextToken_source] at whole'
  omega

/-- At the end there is nothing left to read. -/
theorem readingsWithin_of_atEnd {count : Nat} (atEnd : stream.skipTrivia.atEnd = true) :
    stream.readingsWithin count = [] := by
  cases count with
  | zero => rfl
  | succ count => rw [readingsWithin, if_pos atEnd]

/-- Before the end, the readings are the next one and those that go on from where it stops. -/
theorem readingsWithin_succ {count : Nat} (notAtEnd : ¬stream.skipTrivia.atEnd = true) :
    stream.readingsWithin (count + 1) =
      ⟨stream.nextToken.1, stream.nextToken.2.position⟩ ::
        stream.nextToken.2.readingsWithin count := by
  rw [readingsWithin, if_neg notAtEnd]

/-- The readings from a position inside the source are a chain. -/
theorem readingsWithin_chain {count : Nat} (inside : stream.position ≤ stream.source.size) :
    Reading.Chain stream.source.size stream.position (stream.readingsWithin count) := by
  induction count generalizing stream with
  | zero => exact .nil inside
  | succ count ih =>
    unfold readingsWithin
    split
    next => exact .nil inside
    next notAtEnd =>
      have goesOn := nextToken_goesOn inside notAtEnd
      have later := @ih stream.nextToken.2 (by rw [nextToken_source]; exact goesOn.inside)
      rw [nextToken_source] at later
      exact .cons goesOn later

/-- The readings of a stream follow each other from its position on. -/
theorem readings_chain (inside : stream.position ≤ stream.source.size) :
    Reading.Chain stream.source.size stream.position stream.readings :=
  readingsWithin_chain inside

end Stream

namespace Tokenization

variable {failure : Failure}

/-- The result of a tokenization is a failure exactly when one was met. -/
theorem result_eq_error_iff {tokenization : Tokenization} :
    tokenization.result = .error failure ↔ tokenization.failure = some failure := by
  unfold result
  cases tokenization.failure <;> simp

/-- A tokenization fails with the failure of a reading, at the place that this has reached. -/
theorem mem_of_ofReadings_failure {finish : Stream} {final : Token} (ends : finish.endToken = .ok final)
    {readings : List Reading} (failed : (ofReadings finish readings).failure = some failure) :
    ⟨.error failure, (ofReadings finish readings).position⟩ ∈ readings := by
  induction readings with
  | nil =>
    rw [ofReadings, ends] at failed
    cases failed
  | cons reading readings ih =>
    obtain ⟨outcome, position⟩ := reading
    cases outcome with
    | error cause =>
      cases failed
      exact List.mem_cons_self
    | ok token => exact List.mem_cons_of_mem _ (ih failed)

end Tokenization

namespace Source

variable {source : Source} {failure : Failure}

/-- A source that is not split into tokens is so for a fault of the lexer about characters of it. -/
theorem tokenize_fault (failed : source.tokenize.result = .error failure) :
    ∃ d, failure = .diagnostic d ∧ d.fault.isLexical = true ∧ 0 < d.span.length ∧
      d.span.stop ≤ source.size := by
  have isIn := Tokenization.mem_of_ofReadings_failure source.endToken_toEnd
    (Tokenization.result_eq_error_iff.mp failed)
  have chain := @Stream.readings_chain (.startingAt source 0) (Nat.zero_le _)
  have goesOn := chain.goesOn _ isIn
  obtain ⟨d, rfl, isLexical, filled, inside⟩ := goesOn.failure failure rfl
  exact ⟨d, rfl, isLexical, filled, inside.trans goesOn.inside⟩

/-- A source that is not split into tokens is so for a diagnosis. -/
theorem tokenize_error (failed : source.tokenize.result = .error failure) :
    failure.IsDiagnosis source.size := by
  obtain ⟨d, rfl, _, filled, inside⟩ := tokenize_fault failed
  exact Failure.isDiagnosis_of_pos inside filled

end Source

end SinosLang
