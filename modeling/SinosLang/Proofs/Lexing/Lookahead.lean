import SinosLang.Proofs.Lexing.Advance

/-!
# One character of lookahead

A scanner decides what it takes by the characters that it takes and the one behind them. So a lexeme
that ends before the end of some front of a text is the same whatever comes behind that front, and
so are the trivia before it. Two sources that agree on a front therefore have the same readings, up
to the first one that reaches the end of the front.

Main statements: `starting_decided` for one lexeme, `readingsWithin_decided` for the readings of a
stream, and `tokenize_decided` for the failure of a tokenization.
-/

set_option autoImplicit false

namespace SinosLang

namespace Text

variable {p : Char → Bool} {front rest other : Text}

/-- A run of characters of a class that ends within the front of a text is the same whatever comes
behind the front, and so is the character that ends it. -/
theorem takeWhile_decided (few : ((front ++ rest).takeWhile p).length < front.length)
    (other : Text) :
    (front ++ other).takeWhile p = front.takeWhile p ∧
      ∃ c behind, front.dropWhile p = c :: behind ∧
        (front ++ other).dropWhile p = c :: (behind ++ other) := by
  have notAll : ¬(front.takeWhile p).length = front.length := by
    intro all
    rw [List.takeWhile_append, if_pos all, List.length_append] at few
    omega
  have filled : front.dropWhile p ≠ [] := by
    intro empty
    have split := congrArg List.length (List.takeWhile_append_dropWhile (p := p) (l := front))
    rw [empty, List.append_nil] at split
    exact notAll split
  obtain ⟨c, behind, isBehind⟩ := List.exists_cons_of_ne_nil filled
  refine ⟨by rw [List.takeWhile_append, if_neg notAll], c, behind, isBehind, ?_⟩
  rw [List.dropWhile_append, isBehind]
  rfl

end Text

namespace Lexeme

variable {front rest other : Text} {first : Char}

/-- The trivia are the same whatever comes behind the front of a text, if two characters of it at
least come behind them. -/
theorem triviaLength_decided {inComment : Bool}
    (few : triviaLength inComment (front ++ rest) + 1 < front.length) :
    triviaLength inComment (front ++ other) = triviaLength inComment (front ++ rest) := by
  induction front generalizing inComment with
  | nil => exact absurd few (Nat.not_lt_zero _)
  | cons c front ih =>
    rw [List.length_cons] at few
    rw [List.cons_append, triviaLength] at few
    rw [List.cons_append, List.cons_append, triviaLength, triviaLength]
    have sameHead : front ≠ [] → (front ++ other).head? = (front ++ rest).head? := by
      intro filled
      obtain ⟨d, front, rfl⟩ := List.exists_cons_of_ne_nil filled
      rfl
    have filled : front ≠ [] := by
      rintro rfl
      rw [List.length_nil] at few
      omega
    rw [sameHead filled]
    split at few
    next inside => rw [if_pos inside, if_pos inside, ih (by omega)]
    next outside =>
      rw [if_neg outside, if_neg outside]
      split at few
      next blank => rw [if_pos blank, if_pos blank, ih (by omega)]
      next notBlank =>
        rw [if_neg notBlank, if_neg notBlank]
        split at few
        next comment => rw [if_pos comment, if_pos comment, ih (by omega)]
        next noComment => rw [if_neg noComment, if_neg noComment]

/-- A word that ends within a text is the same whatever is behind the text. -/
theorem identifier_decided (few : (identifier (front ++ rest)).taken < front.length) :
    identifier (front ++ other) = identifier (front ++ rest) := by
  unfold identifier
  rw [(Text.takeWhile_decided few other).1, (Text.takeWhile_decided few rest).1]

/-- A number with a point takes the digits before and behind the point at least. -/
theorem le_taken_fractional (whole afterPoint : Text) :
    whole.length + 1 + (afterPoint.takeWhile Text.isDigit).length ≤
      (fractional whole afterPoint).taken := by
  unfold fractional
  generalize afterPoint.takeWhile Text.isDigit = fraction
  have length_eq : (whole ++ '.' :: fraction).length = whole.length + 1 + fraction.length := by
    rw [List.length_append, List.length_cons]
    omega
  dsimp only
  split
  next => exact length_eq.ge
  next =>
    split
    next => exact length_eq.ge.trans (Nat.le_add_right _ _)
    next => split <;> exact length_eq.ge

/-- A number with a point that ends within a text is the same whatever is behind the text. -/
theorem fractional_decided {whole : Text}
    (few : (fractional whole (front ++ rest)).taken < whole.length + 1 + front.length) :
    fractional whole (front ++ other) = fractional whole (front ++ rest) := by
  have digits : ((front ++ rest).takeWhile Text.isDigit).length < front.length := by
    have := le_taken_fractional whole (front ++ rest)
    omega
  obtain ⟨same, c, behind, isBehind, drop⟩ := Text.takeWhile_decided digits rest
  obtain ⟨same', _, _, isBehind', drop'⟩ := Text.takeWhile_decided digits other
  rw [isBehind] at isBehind'
  cases isBehind'
  have split := congrArg List.length
    (@List.takeWhile_append_dropWhile _ Text.isDigit front)
  rw [isBehind, List.length_append] at split
  unfold fractional at few ⊢
  rw [same, drop] at few
  rw [same, drop, same', drop']
  generalize front.takeWhile Text.isDigit = fraction at few split ⊢
  dsimp only at few ⊢
  split
  next => rfl
  next noFraction =>
    rw [if_neg noFraction] at few
    rw [List.head?_cons, List.head?_cons] at *
    split
    next isPoint =>
      -- the digits and points behind a second point end within the front as well
      rw [if_pos isPoint] at few
      simp only [List.length_append, List.length_cons] at few split
      have more : (((c :: behind) ++ rest).takeWhile fun c => Text.isDigit c || c == '.').length <
          (c :: behind).length := by
        rw [List.cons_append, List.length_cons]
        omega
      have excess := (Text.takeWhile_decided more rest).1
      have excess' := (Text.takeWhile_decided more other).1
      rw [List.cons_append] at excess excess'
      rw [excess, excess']
    next => rfl

/-- Digits in front of a point are the whole part of a number with a point. -/
theorem number_of_point {text afterPoint : Text}
    (behind : text.dropWhile Text.isDigit = '.' :: afterPoint) :
    number text = fractional (text.takeWhile Text.isDigit) afterPoint := by
  unfold number
  rw [behind]
  rfl

/-- Digits in front of no point are an integer, unless there are none or too many. -/
theorem number_of_not_point {text : Text}
    (noPoint : (text.dropWhile Text.isDigit).head? ≠ some '.') :
    number text =
      let whole := text.takeWhile Text.isDigit
      if whole.isEmpty || maxDigits < whole.length then
        ⟨whole.length, .fault .badNumber 0 whole.length⟩
      else
        ⟨whole.length, .token .int whole⟩ := by
  unfold number
  dsimp only
  split
  next isPoint =>
    rw [isPoint] at noPoint
    exact absurd rfl noPoint
  next => rfl

/-- A number takes the digits that it begins with at least. -/
theorem le_taken_number (text : Text) :
    (text.takeWhile Text.isDigit).length ≤ (number text).taken := by
  unfold number
  dsimp only
  split
  next => exact (Nat.le_add_right _ _).trans ((Nat.le_add_right _ _).trans (le_taken_fractional _ _))
  next => split <;> exact le_rfl

/-- A number that ends within a text is the same whatever is behind the text. -/
theorem number_decided (few : (number (front ++ rest)).taken < front.length) :
    number (front ++ other) = number (front ++ rest) := by
  have digits := (le_taken_number (front ++ rest)).trans_lt few
  obtain ⟨same, c, behind, isBehind, drop⟩ := Text.takeWhile_decided digits rest
  obtain ⟨same', _, _, isBehind', drop'⟩ := Text.takeWhile_decided digits other
  rw [isBehind] at isBehind'
  cases isBehind'
  by_cases isPoint : c = '.'
  · subst isPoint
    have split := congrArg List.length
      (@List.takeWhile_append_dropWhile _ Text.isDigit front)
    rw [isBehind, List.length_append, List.length_cons] at split
    rw [number_of_point drop, same] at few
    rw [number_of_point drop', number_of_point drop, same, same']
    exact fractional_decided (by omega)
  · have noPoint (behind : Text) : (c :: behind).head? ≠ some '.' := fun isHead =>
      isPoint (Option.some.inj isHead)
    rw [number_of_not_point (drop' ▸ noPoint _), number_of_not_point (drop ▸ noPoint _), same, same']

/-- A string takes what was read of it at least. -/
theorem le_taken_stringAfter (taken : Nat) (before text : Text) :
    taken ≤ (stringAfter taken before text).taken := by
  fun_induction stringAfter taken before text with
  | case1 => exact le_rfl
  | case2 => exact Nat.le_succ _
  | case3 => exact Nat.le_succ _
  | case4 _ _ _ _ _ _ _ _ _ ih => omega
  | case5 => exact Nat.le_add_right _ _
  | case6 _ _ _ _ _ _ ih => omega

/-- A string that ends within a text is the same whatever is behind the text. -/
theorem stringAfter_decided {taken : Nat} {before : Text}
    (few : (stringAfter taken before (front ++ rest)).taken < taken + front.length) :
    stringAfter taken before (front ++ other) = stringAfter taken before (front ++ rest) := by
  generalize shape : front ++ rest = text at few ⊢
  fun_induction stringAfter taken before text generalizing front with
  | case1 taken before =>
    obtain ⟨rfl, _⟩ := List.append_eq_nil_iff.mp shape
    exact absurd few (Nat.lt_irrefl _)
  | case2 taken before c later isQuote =>
    rcases front with _ | ⟨_, front⟩
    · exact absurd few (by simp)
    · obtain ⟨rfl, _⟩ := List.cons.inj shape
      rw [List.cons_append, stringAfter.eq_def]
      simp only [isQuote, if_true]
  | case3 taken before c notQuote isEscape =>
    have length_eq := congrArg List.length shape
    rw [List.length_append, List.length_singleton] at length_eq
    dsimp only at few
    omega
  | case4 taken before c notQuote isEscape letter later decoded unescaped ih =>
    have least := le_taken_stringAfter (taken + 2) (decoded :: before) later
    rcases front with _ | ⟨_, _ | ⟨_, front⟩⟩
    · simp only [List.length_nil] at few
      omega
    · simp only [List.length_cons, List.length_nil] at few
      omega
    · obtain ⟨rfl, shape'⟩ := List.cons.inj shape
      obtain ⟨rfl, shape''⟩ := List.cons.inj shape'
      rw [List.cons_append, List.cons_append, stringAfter.eq_def]
      simp only [notQuote, isEscape, unescaped, if_true, Bool.false_eq_true, if_false]
      exact ih shape'' (by simp only [List.length_cons] at few; omega)
  | case5 taken before c notQuote isEscape letter later notUnescaped =>
    rcases front with _ | ⟨_, _ | ⟨_, front⟩⟩
    · exact absurd few (by simp)
    · exact absurd few (by simp)
    · obtain ⟨rfl, shape'⟩ := List.cons.inj shape
      obtain ⟨rfl, _⟩ := List.cons.inj shape'
      rw [List.cons_append, List.cons_append, stringAfter.eq_def]
      simp only [notQuote, isEscape, notUnescaped, if_true, Bool.false_eq_true, if_false]
  | case6 taken before c later notQuote notEscape ih =>
    have least := le_taken_stringAfter (taken + 1) (c :: before) later
    rcases front with _ | ⟨_, front⟩
    · simp only [List.length_nil] at few
      omega
    · obtain ⟨rfl, shape'⟩ := List.cons.inj shape
      rw [List.cons_append, stringAfter.eq_def]
      simp only [notQuote, notEscape, Bool.false_eq_true, if_false]
      exact ih shape' (by simp only [List.length_cons] at few; omega)

/-- What is found among the symbols of a size is decided by as many characters. -/
theorem symbolUpTo?_decided {most : Nat} (enough : most ≤ front.length) :
    symbolUpTo? (front ++ other) most = symbolUpTo? (front ++ rest) most := by
  induction most with
  | zero => rfl
  | succ most ih =>
    unfold symbolUpTo?
    rw [List.take_append_of_le_length enough, List.take_append_of_le_length enough,
      ih (Nat.le_of_succ_le enough)]

/-- A symbol is decided by two characters. -/
theorem symbol?_decided (two : 1 < front.length) :
    symbol? (front ++ other) = symbol? (front ++ rest) :=
  symbolUpTo?_decided two

/-- A lexeme is the same whatever comes behind the front of a text, if it ends before the end of
that front. -/
theorem starting_decided
    (few : (starting first (first :: front ++ rest)).taken < (first :: front).length) :
    starting first (first :: front ++ other) = starting first (first :: front ++ rest) := by
  have two : 1 < (first :: front).length :=
    Nat.lt_of_le_of_lt (starting_takes first (front ++ rest)).filled few
  unfold starting at few ⊢
  split
  next start =>
    rw [if_pos start] at few
    exact identifier_decided few
  next notStart =>
    rw [if_neg notStart] at few
    split
    next digit =>
      rw [if_pos digit] at few
      exact number_decided few
    next notDigit =>
      rw [if_neg notDigit] at few
      split
      next quote =>
        rw [if_pos quote, List.length_cons, Nat.add_comm] at few
        exact stringAfter_decided few
      next => rw [symbol?_decided two]

end Lexeme

/-- Two streams stand at the same place and have the same characters before them up to a cut, which
lies in both sources. -/
structure Stream.Agrees (cut : Nat) (first second : Stream) (front rest other : Text) : Prop where
  position_eq : first.position = second.position
  cut_eq : first.position + front.length = cut
  rest_eq : first.rest = front ++ rest
  other_eq : second.rest = front ++ other
  inside : cut ≤ first.source.size
  inside' : cut ≤ second.source.size

namespace Stream

variable {first second : Stream} {cut : Nat} {front rest other : Text}

/-- A lexeme means the same in two sources that have room for it. -/
theorem meaning_eq {lexeme : Lexeme} {size : Nat} (position_eq : first.position = second.position)
    (takes : lexeme.Takes size) (inside : first.position + lexeme.taken ≤ first.source.size)
    (inside' : second.position + lexeme.taken ≤ second.source.size) :
    second.meaning lexeme = first.meaning lexeme := by
  have same := meaning_forth (position_eq.symm.trans (Nat.add_zero _).symm) inside inside'
    fun fault start length isFault => (takes.fault fault start length isFault).2.2
  rwa [Reading.outcomeForth_zero] at same

/-- What is read before the cut is read by both streams, and they agree behind it. -/
theorem nextToken_decided (agrees : Agrees cut first second front rest other)
    (early : first.nextToken.2.position < cut) (notAtEnd : ¬first.skipTrivia.atEnd = true) :
    ¬second.skipTrivia.atEnd = true ∧ second.nextToken.1 = first.nextToken.1 ∧
      ∃ front', front'.length < front.length ∧
        Agrees cut first.nextToken.2 second.nextToken.2 front' rest other := by
  obtain ⟨position_eq, cut_eq, rest_eq, other_eq, inside, inside'⟩ := agrees
  cases shape : first.skipTrivia.rest with
  | nil =>
    rw [atEnd, shape] at notAtEnd
    exact absurd rfl notAtEnd
  | cons c later =>
    have takes := Lexeme.starting_takes c later
    rw [nextToken_eq_take shape] at early ⊢
    have few : Lexeme.triviaLength false (front ++ rest) +
        (Lexeme.starting c (c :: later)).taken < front.length := by
      simp only [take, skipTrivia, advance_position, rest_eq] at early
      omega
    have filled := takes.filled
    have trivia : Lexeme.triviaLength false (front ++ other) =
        Lexeme.triviaLength false (front ++ rest) := Lexeme.triviaLength_decided (by omega)
    generalize skipped_eq : Lexeme.triviaLength false (front ++ rest) = skipped at few trivia
    -- what is left of the front begins with the lexeme
    obtain ⟨d, front₁, drop_eq⟩ : ∃ d front₁, front.drop skipped = d :: front₁ :=
      List.exists_cons_of_ne_nil (List.drop_eq_nil_iff.not.mpr (by omega))
    have left (behind : Text) : (front ++ behind).drop skipped = d :: (front₁ ++ behind) := by
      rw [List.drop_append_of_le_length (by omega), drop_eq, List.cons_append]
    have length_eq : front₁.length + 1 = front.length - skipped := by
      rw [← List.length_drop, drop_eq, List.length_cons]
    have shape₁ : first.skipTrivia.rest = d :: (front₁ ++ rest) := by
      rw [skipTrivia, advance_rest, rest_eq, skipped_eq, left]
    have shape₂ : second.skipTrivia.rest = d :: (front₁ ++ other) := by
      rw [skipTrivia, advance_rest, other_eq, trivia, left]
    obtain ⟨rfl, rfl⟩ := List.cons.inj (shape.symm.trans shape₁)
    have same : Lexeme.starting c (c :: (front₁ ++ other)) =
        Lexeme.starting c (c :: (front₁ ++ rest)) :=
      Lexeme.starting_decided (by
        rw [List.cons_append, List.length_cons]
        omega)
    rw [nextToken_eq_take shape₂, same]
    generalize Lexeme.starting c (c :: (front₁ ++ rest)) = lexeme at takes few filled ⊢
    have position₁ : first.skipTrivia.position = first.position + skipped := by
      rw [skipTrivia, advance_position, rest_eq, skipped_eq]
    have position₂ : second.skipTrivia.position = first.position + skipped := by
      rw [skipTrivia, advance_position, other_eq, trivia, position_eq]
    refine ⟨?_, ?_, front.drop (skipped + lexeme.taken), ?_, ?_⟩
    · rw [atEnd, shape₂]
      exact Bool.false_ne_true
    · refine meaning_eq (position₁.trans position₂.symm) takes ?_ ?_
      · rw [position₁]
        exact le_trans (by omega) inside
      · rw [position₂]
        exact le_trans (by omega) inside'
    · rw [List.length_drop]
      omega
    · refine ⟨?_, ?_, ?_, ?_, inside, inside'⟩
      · simp only [take, advance_position, position₁, position₂]
      · simp only [take, advance_position, position₁, List.length_drop]
        omega
      · simp only [take, skipTrivia, advance_rest, rest_eq, skipped_eq, List.drop_drop]
        rw [List.drop_append_of_le_length (by omega)]
      · simp only [take, skipTrivia, advance_rest, other_eq, trivia, List.drop_drop]
        rw [List.drop_append_of_le_length (by omega)]

/-- Up to the first reading that reaches the cut, both streams have the same readings. -/
theorem readingsWithin_decided {count count' : Nat}
    (agrees : Agrees cut first second front rest other) (enough : front.length ≤ count') :
    ∃ common later later', first.readingsWithin count = common ++ later ∧
      second.readingsWithin count' = common ++ later' ∧
      ∀ reading ∈ later, cut ≤ reading.position := by
  induction count generalizing first second front count' with
  | zero => exact ⟨[], [], _, rfl, rfl, fun _ isIn => absurd isIn List.not_mem_nil⟩
  | succ count ih =>
    by_cases atEnd : first.skipTrivia.atEnd = true
    · refine ⟨[], [], _, ?_, rfl, fun _ isIn => absurd isIn List.not_mem_nil⟩
      rw [readingsWithin, if_pos atEnd, List.append_nil]
    · by_cases early : first.nextToken.2.position < cut
      · obtain ⟨notAtEnd, same, front', fewer, agrees'⟩ := nextToken_decided agrees early atEnd
        obtain ⟨count', rfl⟩ : ∃ fewer, count' = fewer + 1 := ⟨count' - 1, by omega⟩
        obtain ⟨common, later, later', first_eq, second_eq, late⟩ :=
          @ih _ _ front' count' agrees' (by omega)
        refine ⟨⟨first.nextToken.1, first.nextToken.2.position⟩ :: common, later, later', ?_, ?_,
          late⟩
        · rw [readingsWithin_succ atEnd, first_eq]
          rfl
        · rw [readingsWithin_succ notAtEnd, second_eq, same, agrees'.position_eq]
          rfl
      · refine ⟨[], first.readingsWithin (count + 1), _, rfl, rfl, fun reading isIn => ?_⟩
        have within : first.position ≤ first.source.size :=
          (Nat.le_add_right _ _).trans (agrees.cut_eq.le.trans agrees.inside)
        have chain := @readingsWithin_chain first (count + 1) within
        rw [readingsWithin_succ atEnd] at isIn chain
        have reached := Nat.le_of_not_lt early
        cases chain with
        | cons _ behind =>
          rcases List.mem_cons.mp isIn with rfl | later
          · exact reached
          · exact reached.trans (behind.goesOn reading later).forward.le

/-- Two sources of which one begins like the other up to a cut have the same readings up to the
first one that reaches the cut. -/
theorem readings_decided (source : Source) (name other : Text) (inside : cut ≤ source.size) :
    ∃ common later later', (startingAt source 0).readings = common ++ later ∧
      (startingAt (Source.ofText name (source.text.take cut ++ other)) 0).readings =
        common ++ later' ∧
      ∀ reading ∈ later, cut ≤ reading.position := by
  have length_eq : (source.text.take cut).length = cut := by
    rw [List.length_take, ← source.size_eq]
    omega
  have length_le : cut ≤ (source.text.take cut ++ other).length := by
    rw [List.length_append, length_eq]
    exact Nat.le_add_right _ _
  have agrees : Agrees cut (startingAt source 0)
      (startingAt (Source.ofText name (source.text.take cut ++ other)) 0) (source.text.take cut)
      (source.text.drop cut) other :=
    { position_eq := rfl
      cut_eq := (Nat.zero_add _).trans length_eq
      rest_eq := (List.take_append_drop cut source.text).symm
      other_eq := rfl
      inside := inside
      inside' := length_le }
  exact readingsWithin_decided agrees (length_eq.le.trans length_le)

end Stream

namespace Tokenization

variable {finish finish' : Stream} {cut : Nat} {failure : Failure}

/-- A tokenization that fails before the cut fails in the same way whatever comes behind it. -/
theorem ofReadings_decided {final : Token} (ends : finish.endToken = .ok final)
    {common later later' : List Reading} (late : ∀ reading ∈ later, cut ≤ reading.position)
    (failed : (ofReadings finish (common ++ later)).failure = some failure)
    (early : (ofReadings finish (common ++ later)).position < cut) :
    (ofReadings finish' (common ++ later')).failure = some failure := by
  induction common with
  | nil => exact absurd (late _ (mem_of_ofReadings_failure ends failed)) (Nat.not_le.mpr early)
  | cons reading common ih =>
    obtain ⟨outcome, position⟩ := reading
    cases outcome with
    | error cause => exact failed
    | ok token => exact ih failed early

end Tokenization

namespace Source

variable {source : Source} {failure : Failure}

/-- A source that cannot be split into tokens is so because of the characters that were read and the
one behind them. -/
theorem tokenize_decided (failed : source.tokenize.result = .error failure)
    (before : source.tokenize.position < source.size) (name other : Text) :
    (ofText name (source.text.take (source.tokenize.position + 1) ++ other)).tokenize.result =
      .error failure := by
  obtain ⟨common, later, later', first_eq, second_eq, late⟩ :=
    Stream.readings_decided source name other before
  rw [Tokenization.result_eq_error_iff] at failed ⊢
  rw [tokenize, Stream.tokenize, first_eq] at failed
  rw [tokenize, Stream.tokenize, second_eq]
  refine Tokenization.ofReadings_decided source.endToken_toEnd late failed ?_
  rw [← first_eq]
  exact Nat.lt_succ_self _

end Source

end SinosLang
