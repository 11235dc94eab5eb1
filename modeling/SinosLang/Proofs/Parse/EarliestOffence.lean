import SinosLang.Proofs.Parse.Viable

/-!
# Where an unexpected token is reported

If the parser reports a token that it did not expect, that is the earliest one at which the source
goes wrong. Everything before it may be completed to a sentence of the grammar, and no sentence goes
on with it; if it is the end, what is before it is no sentence. The first half is what every rule
promises. For the second one the parser is run abreast of the tolerant one, on any sentence that
would go on in this way: that one accepts it, and so the parser would not have failed there.

Main statement: `parse_blames_earliest`.
-/

set_option autoImplicit false

namespace SinosLang

open Grammar

namespace Tokenization

/-- The tokens of readings begin with those read first. -/
theorem tokens_ofReadings (finish : Stream) {readings : List Reading} {before : List Token}
    {later : List (Except Failure Token)}
    (split : readings.map Reading.outcome = before.map .ok ++ later) :
    ∃ rest, rest.map Reading.outcome = later ∧
      (ofReadings finish readings).tokens = before ++ (ofReadings finish rest).tokens := by
  induction before generalizing readings with
  | nil => exact ⟨readings, split, rfl⟩
  | cons token before ih =>
    obtain ⟨reading, readings, rfl, outcome_eq, split⟩ := List.map_eq_cons_iff.mp split
    obtain ⟨rest, rest_eq, tokens_eq⟩ := ih split
    refine ⟨rest, rest_eq, ?_⟩
    rw [ofReadings, outcome_eq]
    exact congrArg (token :: ·) tokens_eq

end Tokenization

namespace Cursor.Past

variable {source : Source} {consumed : List Token} {cursor : Cursor} {token : Token}

/-- Where the end is seen, all readings of the source were consumed. -/
theorem at_end (past : cursor.Past source consumed) (full : cursor.lookahead = some token)
    (isEnd : token.kind = .eof) :
    token = source.endToken ∧ (start source).pending = consumed.map .ok ++ [] := by
  obtain ⟨_, rfl⟩ := past.consistent.finish token full isEnd
  refine ⟨?_, ?_⟩
  · rw [← past.source_eq]
    rfl
  · rw [past.pending_eq, pending, full]
    simp [isEnd]

/-- Any other token that is seen is the next one of the readings. -/
theorem before_end (past : cursor.Past source consumed) (full : cursor.lookahead = some token)
    (notEnd : token.kind ≠ .eof) :
    (start source).pending =
      (consumed ++ [token]).map .ok ++ cursor.upcoming.map Reading.outcome := by
  rw [past.pending_eq, pending, full]
  simp [notEnd]

/-- The token that is seen is one of the source, behind those consumed. -/
theorem exists_behind (past : cursor.Past source consumed) (full : cursor.lookahead = some token) :
    ∃ behind, source.tokenize.tokens = consumed ++ token :: behind := by
  unfold Source.tokenize Stream.tokenize
  by_cases isEnd : token.kind = .eof
  · obtain ⟨rfl, pending_eq⟩ := past.at_end full isEnd
    obtain ⟨rest, rest_eq, tokens_eq⟩ :=
      Tokenization.tokens_ofReadings (Stream.startingAt source 0).toEnd pending_eq
    rw [List.map_eq_nil_iff.mp rest_eq, Tokenization.ofReadings, source.endToken_toEnd] at tokens_eq
    exact ⟨[], tokens_eq⟩
  · obtain ⟨rest, _, tokens_eq⟩ := Tokenization.tokens_ofReadings
      (Stream.startingAt source 0).toEnd (past.before_end full isEnd)
    rw [List.append_assoc] at tokens_eq
    exact ⟨_, tokens_eq⟩

end Cursor.Past

namespace Cursor

variable {source : Source} {shared more : List Token} {cut : Nat}
  {later : List (Except Failure Token)}

/-- As long as the end is not seen, one token more remains than is behind it. -/
theorem remaining_eq {cursor : Cursor} {token : Token} (full : cursor.lookahead = some token)
    (notEnd : token.kind ≠ .eof) :
    cursor.remaining = cursor.upcoming.length + 1 := by
  unfold remaining
  rw [full]
  exact if_neg notEnd

/-- A source and a sentence that begin with the same tokens are abreast up to those. -/
theorem abreast_ahead (split : (start source).pending = shared.map .ok ++ later)
    (atCut : cut = later.length + 1 ∨ later = [] ∧ more = []) :
    Abreast Parse.anywhere cut (start source) (ahead (shared ++ more)) where
  lookahead := .none
  nesting_eq := rfl
  endToken := ⟨rfl, rfl, trivial, trivial⟩
  upcoming := by
    refine ⟨shared, shared.map flatten, later, more.map fun token => .ok (flatten token), split,
      ?_, ?_, ?_⟩
    · simp [ahead, Function.comp_def]
    · refine List.forall₂_map_right_iff.mpr (List.forall₂_same.mpr ?_)
      exact fun token _ => ⟨rfl, rfl, trivial, trivial⟩
    · refine atCut.imp_right ?_
      rintro ⟨rfl, rfl⟩
      exact ⟨rfl, rfl⟩

end Cursor

namespace Parse

variable {limits : Limits} {source : Source} {after : Cursor} {d : Diagnostic}
  {shared more : List Token} {later : List (Except Failure Token)} {cut : Nat}

/-- A parse that fails before the cut for an unexpected token does not fail on a sentence. -/
theorem not_sentence (failed : allStatements limits (Cursor.start source) =
      (.error (.diagnostic d), after)) (isExpectation : d.fault.isExpectation = true)
    (split : (Cursor.start source).pending = shared.map .ok ++ later)
    (atCut : cut = later.length + 1 ∨ later = [] ∧ more = []) (early : cut ≤ after.remaining) :
    ¬Sentence (shared ++ more) := by
  intro isSentence
  obtain ⟨results, after', accepted⟩ := exists_tolerantStatements isSentence
  have keeps := (@alongside_tolerant limits cut).keeps (Cursor.abreast_ahead split atCut)
  rw [failed, accepted] at keeps
  cases keeps with
  | past reached => exact absurd reached (Nat.not_lt.mpr early)
  | excused isExcused =>
    rw [isExcused d rfl] at isExpectation
    cases isExpectation

/-- A source that is rejected for an unexpected token is so while its statements are read. -/
theorem allStatements_of_expectation (rejected : source.parse = .error (.diagnostic d))
    (isExpectation : d.fault.isExpectation = true) :
    ∃ after, allStatements Limits.standard (Cursor.start source) =
      (.error (.diagnostic d), after) := by
  unfold Source.parse Source.parseWithin at rejected
  match run : allStatements Limits.standard (Cursor.start source) with
  | (.error failure, after) =>
    rw [program_of_failure run] at rejected
    cases rejected
    exact ⟨after, rfl⟩
  | (.ok results, after) =>
    rw [program_of_allStatements (Cursor.consistent_start source) run] at rejected
    simp only [build] at rejected
    split at rejected
    · cases rejected
    · cases rejected
      cases isExpectation

end Parse

namespace Source

/-- A token that was not expected is the earliest one at which a source goes wrong: it is a token of
the source, what is before it is the beginning of a sentence, and what is up to it is not; if it is
the end, what is before it is no sentence. -/
theorem parse_blames_earliest (source : Source) (d : Diagnostic)
    (rejected : source.parse = .error (.diagnostic d))
    (isExpectation : d.fault.isExpectation = true) :
    ∃ before token behind, source.tokenize.tokens = before ++ token :: behind ∧
      d.span = token.span ∧ Viable before ∧ ¬Viable (before ++ [token]) ∧
      (token.kind = .eof → ¬Sentence before) := by
  obtain ⟨after, failed⟩ := Parse.allStatements_of_expectation rejected isExpectation
  rcases (Parse.allStatements_viable source).error failed with
    isExcused | ⟨fault, token, before, same, past, full, viable⟩
  · rw [isExcused d rfl] at isExpectation
    cases isExpectation
  · cases same
    obtain ⟨behind, tokens_eq⟩ := past.exists_behind full
    refine ⟨before, token, behind, tokens_eq, rfl, viable, ?_, ?_⟩
    · rintro ⟨more, isSentence⟩
      by_cases isEnd : token.kind = .eof
      · exact isSentence.endless token (by simp) isEnd
      · have early := (Cursor.remaining_eq full isEnd).ge
        rw [← List.length_map Reading.outcome] at early
        exact Parse.not_sentence failed isExpectation (past.before_end full isEnd) (.inl rfl) early
          isSentence
    · intro isEnd isSentence
      obtain ⟨_, pending_eq⟩ := past.at_end full isEnd
      rw [← List.append_nil before] at isSentence
      exact Parse.not_sentence failed isExpectation pending_eq (.inr ⟨rfl, rfl⟩) (Nat.zero_le _)
        isSentence

/-- The semicolon comes too early in a group: a parenthesis has to come first. -/
theorem parse_blames_earliest_semicolon :
    ∃ before token behind, (ofText [] "(x;".toList).tokenize.tokens = before ++ token :: behind ∧
      (⟨2, 1⟩ : Span) = token.span ∧ Viable before ∧ ¬Viable (before ++ [token]) ∧
      (token.kind = .eof → ¬Sentence before) := by
  have rejected : (ofText [] "(x;".toList).parse =
      .error (.diagnostic ⟨.expectParenClose, ⟨2, 1⟩⟩) := by cbv
  exact parse_blames_earliest _ _ rejected rfl

end Source

end SinosLang
