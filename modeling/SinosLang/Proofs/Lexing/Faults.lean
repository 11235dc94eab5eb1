import SinosLang.Proofs.Lexing.Lookahead

/-!
# The faults of lexemes

Behind the trivia the lexer objects to four things: a character that begins no lexeme, an escape that
is not known, a string that does not end, and a number that is malformed. Each of them is told from
the text there alone, and what is not one of them is a token. So the lexer reports a fault exactly
where one stands, and about exactly the characters that are at fault.

Main statement: `nextToken_classified`.
-/

set_option autoImplicit false

namespace SinosLang

namespace Text

/-- A character that an identifier, a number, a string or a symbol may start with. -/
def StartsLexeme (c : Char) : Prop :=
  isIdentifierStart c = true ∨ isDigit c = true ∨ c = '"' ∨
    ∃ entry ∈ TokenKind.symbols, entry.1.head? = some c

/-- A text that no number goes on with. -/
def EndsNumber (text : Text) : Prop :=
  ∀ c, text.head? = some c → isDigit c = false ∧ c ≠ '.'

/-- Digits and points that are no numeral of the language, with the text behind them: an integer of
too many digits, a point without a digit behind it, a second point, or a number that is too large. -/
inductive Malformed : Text → Text → Prop
  | long {digits behind : Text} : digits.IsNumeral → Lexeme.maxDigits < digits.length →
    behind.EndsNumber → Malformed digits behind
  | dangling {whole behind : Text} : whole.IsNumeral →
    (∀ c, behind.head? = some c → isDigit c = false) → Malformed (whole ++ ['.']) behind
  | dotted {whole fraction excess behind : Text} : whole.IsNumeral → fraction.IsNumeral →
    (∀ c ∈ excess, (isDigit c || c == '.') = true) → behind.EndsNumber →
    Malformed (whole ++ '.' :: fraction ++ '.' :: excess) behind
  | overflowing {whole fraction behind : Text} : whole.IsNumeral → fraction.IsNumeral →
    (Binary64.ofLiteral (whole ++ '.' :: fraction)).isInfinite = true → behind.EndsNumber →
    Malformed (whole ++ '.' :: fraction) behind

/-- What stops the characters of a string: a quote, an escape that is not known, a backslash with
nothing behind it, or the end of the text. -/
inductive StopsQuotes : Text → Prop
  | quote {rest : Text} : StopsQuotes ('"' :: rest)
  | escape {letter : Char} {rest : Text} :
    unescape? letter = none → StopsQuotes ('\\' :: letter :: rest)
  | backslash : StopsQuotes ['\\']
  | ending : StopsQuotes []

end Text

/-- What the lexer objects to in a text with a given first character, and at which place in it. -/
inductive Offends (first : Char) (later : Text) : Fault → Span → Prop
  | stranger : ¬Text.StartsLexeme first → Offends first later .unexpectedChar ⟨0, 1⟩
  | escape {body content rest : Text} {letter : Char} : first = '"' →
    later = body ++ '\\' :: letter :: rest → Text.Quotes body content →
    Text.unescape? letter = none → Offends first later .badEscape ⟨body.length + 1, 2⟩
  | endless {body content : Text} : first = '"' → later = body ∨ later = body ++ ['\\'] →
    Text.Quotes body content → Offends first later .unterminatedString ⟨0, later.length + 1⟩
  | number {literal behind : Text} : Text.isDigit first = true →
    first :: later = literal ++ behind → Text.Malformed literal behind →
    Offends first later .badNumber ⟨0, literal.length⟩

namespace Lexeme

variable {first c : Char} {text later behind : Text} {fault : Fault} {start length : Nat}

/-! ## Numbers -/

/-- A malformed number is taken as a whole. -/
theorem number_of_malformed {literal : Text} (malformed : Text.Malformed literal behind) :
    number (literal ++ behind) = ⟨literal.length, .fault .badNumber 0 literal.length⟩ := by
  cases malformed with
  | long digits tooMany ends =>
    obtain ⟨run, after⟩ := Text.takeWhile_append digits.2 fun c head => (ends c head).1
    have noPoint : ((literal ++ behind).dropWhile Text.isDigit).head? ≠ some '.' := by
      rw [after]
      exact fun head => (ends '.' head).2 rfl
    rw [number_of_not_point noPoint, run]
    simp [tooMany]
  | @dangling whole _ digits noDigit =>
    obtain ⟨run, _⟩ := Text.takeWhile_append (List.forall_mem_nil _) noDigit
    rw [List.append_assoc, List.singleton_append, number_pointed digits, fractional]
    rw [List.nil_append] at run
    simp [run]
  | @dotted whole fraction excess _ digits decimals more ends =>
    have filled : fraction.isEmpty = false := List.isEmpty_eq_false_iff.mpr decimals.1
    obtain ⟨run, after⟩ := Text.takeWhile_point decimals.2 (excess ++ behind)
    have more' : ∀ c ∈ '.' :: excess, (Text.isDigit c || c == '.') = true :=
      List.forall_mem_cons.mpr ⟨by decide, more⟩
    have ends' : ∀ c, behind.head? = some c → (Text.isDigit c || c == '.') = false :=
      fun c head => by simp [ends c head]
    obtain ⟨run', _⟩ := Text.takeWhile_append more' ends'
    rw [List.append_assoc, List.append_assoc, List.cons_append, number_pointed digits, fractional]
    rw [List.cons_append] at run' ⊢
    simp [run, after, filled, run']
    omega
  | @overflowing whole fraction _ digits decimals infinite ends =>
    have filled : fraction.isEmpty = false := List.isEmpty_eq_false_iff.mpr decimals.1
    obtain ⟨run, after⟩ := Text.takeWhile_append decimals.2 fun c head => (ends c head).1
    have noPoint : behind.head? ≠ some '.' := fun head => (ends '.' head).2 rfl
    rw [List.append_assoc, List.cons_append, number_pointed digits, fractional]
    simp [run, after, filled, infinite, noPoint]

/-- A fault in the digits before a point and the text behind it. -/
theorem malformed_of_fractional {whole afterPoint : Text} (digits : whole.IsNumeral)
    (found : (fractional whole afterPoint).found = .fault fault start length) :
    ∃ literal behind, whole ++ '.' :: afterPoint = literal ++ behind ∧
      Text.Malformed literal behind := by
  have split := (@List.takeWhile_append_dropWhile _ Text.isDigit afterPoint).symm
  have decimals : ∀ c ∈ afterPoint.takeWhile Text.isDigit, Text.isDigit c = true :=
    fun c isIn => List.mem_takeWhile_imp isIn
  have noDigit {c : Char} (head : (afterPoint.dropWhile Text.isDigit).head? = some c) :
      Text.isDigit c = false := Text.head?_dropWhile head
  unfold fractional at found
  generalize afterPoint.takeWhile Text.isDigit = fraction at split decimals found
  generalize afterPoint.dropWhile Text.isDigit = rest at split noDigit found
  subst split
  dsimp only at found
  split at found
  next empty =>
    obtain rfl := List.isEmpty_iff.mp empty
    exact ⟨whole ++ ['.'], rest, by simp, .dangling digits fun c => noDigit⟩
  next filled =>
    have fraction_numeral : Text.IsNumeral fraction :=
      ⟨fun empty => filled (List.isEmpty_iff.mpr empty), decimals⟩
    split at found
    next point =>
      obtain ⟨more, rfl⟩ := List.head?_eq_some_iff.mp (beq_iff_eq.mp point)
      let part := fun c => Text.isDigit c || c == '.'
      refine ⟨whole ++ '.' :: fraction ++ '.' :: more.takeWhile part, more.dropWhile part, ?_,
        .dotted digits fraction_numeral (fun c isIn => List.mem_takeWhile_imp (p := part) isIn)
          fun c head => ?_⟩
      · simp only [List.append_assoc, List.cons_append, List.takeWhile_append_dropWhile]
      · simpa [part] using Text.head?_dropWhile head
    next noPoint =>
      split at found
      next infinite =>
        refine ⟨whole ++ '.' :: fraction, rest, by simp,
          .overflowing digits fraction_numeral infinite fun c head => ⟨noDigit head, ?_⟩⟩
        rintro rfl
        exact noPoint (beq_iff_eq.mpr head)
      next => cases found

/-- A fault in what starts with a digit is a malformed number. -/
theorem malformed_of_number (digit : Text.isDigit first = true)
    (found : (number (first :: later)).found = .fault fault start length) :
    ∃ literal behind, first :: later = literal ++ behind ∧ Text.Malformed literal behind := by
  have split := (@List.takeWhile_append_dropWhile _ Text.isDigit (first :: later)).symm
  have digits : Text.IsNumeral ((first :: later).takeWhile Text.isDigit) := by
    refine ⟨?_, fun c isIn => List.mem_takeWhile_imp isIn⟩
    rw [List.takeWhile_cons_of_pos digit]
    exact List.cons_ne_nil _ _
  by_cases point : ((first :: later).dropWhile Text.isDigit).head? = some '.'
  · obtain ⟨afterPoint, behind_eq⟩ := List.head?_eq_some_iff.mp point
    rw [behind_eq] at split
    rw [number_of_point behind_eq] at found
    rw [split]
    exact malformed_of_fractional digits found
  · rw [number_of_not_point point] at found
    have filled := List.isEmpty_eq_false_iff.mpr digits.1
    simp only [filled, Bool.false_or, decide_eq_true_eq] at found
    split at found
    next tooMany =>
      refine ⟨_, _, split, .long digits tooMany fun c head => ⟨Text.head?_dropWhile head, ?_⟩⟩
      rintro rfl
      exact point head
    next => cases found

/-! ## Strings -/

/-- Every text has characters of a string at its front, maybe none, up to what stops them. -/
theorem exists_quotes (text : Text) :
    ∃ body content rest, text = body ++ rest ∧ Text.Quotes body content ∧ rest.StopsQuotes := by
  fun_induction stringAfter 0 [] text with
  | case1 => exact ⟨[], [], [], rfl, .nil, .ending⟩
  | case2 _ _ c rest isQuote =>
    obtain rfl := beq_iff_eq.mp isQuote
    exact ⟨[], [], _, rfl, .nil, .quote⟩
  | case3 _ _ c _ isEscape =>
    obtain rfl := beq_iff_eq.mp isEscape
    exact ⟨[], [], _, rfl, .nil, .backslash⟩
  | case4 _ _ c _ isEscape letter rest decoded unescaped ih =>
    obtain rfl := beq_iff_eq.mp isEscape
    obtain ⟨body, content, rest, rfl, quotes, stops⟩ := ih
    exact ⟨'\\' :: letter :: body, decoded :: content, rest, rfl, .escaped unescaped quotes, stops⟩
  | case5 _ _ c _ isEscape letter rest unknown =>
    obtain rfl := beq_iff_eq.mp isEscape
    exact ⟨[], [], _, rfl, .nil, .escape unknown⟩
  | case6 _ _ c rest notQuote notEscape ih =>
    obtain ⟨body, content, rest, rfl, quotes, stops⟩ := ih
    exact ⟨c :: body, c :: content, rest, rfl,
      .plain (fun same => notQuote (beq_iff_eq.mpr same))
        (fun same => notEscape (beq_iff_eq.mpr same)) quotes, stops⟩

/-- Behind a quote stands a string. -/
theorem starting_quote (later : Text) : starting '"' ('"' :: later) = stringAfter 1 [] later := by
  have notStart : Text.isIdentifierStart '"' = false := by decide
  have notDigit : Text.isDigit '"' = false := by decide
  rw [starting, notStart, notDigit, if_neg Bool.false_ne_true, if_neg Bool.false_ne_true,
    if_pos (beq_self_eq_true _)]
  rfl

/-- A string with an unknown escape is taken up to there, and the escape is at fault. -/
theorem stringAfter_escape {body content rest : Text} {letter : Char}
    (quotes : Text.Quotes body content) (unknown : Text.unescape? letter = none) :
    (stringAfter 1 [] (body ++ '\\' :: letter :: rest)).found =
      .fault .badEscape (body.length + 1) 2 := by
  rw [stringAfter_quotes quotes, stringAfter.eq_def, Nat.add_comm]
  simp [unknown]

/-- A string without an end is taken as a whole, and all of it is at fault, the quote included. -/
theorem stringAfter_endless {body content : Text} (quotes : Text.Quotes body content)
    (split : later = body ∨ later = body ++ ['\\']) :
    (stringAfter 1 [] later).found = .fault .unterminatedString 0 (later.length + 1) := by
  rcases split with rfl | rfl
  · have scanned := stringAfter_quotes quotes 1 [] []
    rw [List.append_nil] at scanned
    rw [scanned, stringAfter, Nat.add_comm]
  · rw [stringAfter_quotes quotes, stringAfter.eq_def, Nat.add_comm]
    simp

/-- What starts with a quote and is at fault is a string with an unknown escape, or one that does not
end. -/
theorem offends_of_string {place : Span}
    (found : (stringAfter 1 [] later).found = .fault fault place.index place.length) :
    Offends '"' later fault place := by
  obtain ⟨index, length⟩ := place
  obtain ⟨body, content, rest, split, quotes, stops⟩ := exists_quotes later
  cases stops with
  | quote =>
    rw [split, stringAfter_eq quotes] at found
    cases found
  | escape unknown =>
    rw [split, stringAfter_escape quotes unknown] at found
    cases found
    exact .escape rfl split quotes unknown
  | backslash =>
    rw [stringAfter_endless quotes (.inr split)] at found
    cases found
    exact .endless rfl (.inr split) quotes
  | ending =>
    rw [List.append_nil] at split
    rw [stringAfter_endless quotes (.inl split)] at found
    cases found
    exact .endless rfl (.inl split) quotes

/-! ## Symbols -/

/-- What the scanner of symbols finds is a symbol that starts with the first character. -/
theorem symbol?_isSymbol {lexeme : Lexeme} (matched : symbol? (c :: later) = some lexeme) :
    ∃ kind more, (c :: more, kind) ∈ TokenKind.symbols ∧
      lexeme.found = .token kind (c :: more) := by
  have filled : ∀ entry ∈ TokenKind.symbols, entry.1 ≠ [] := by decide
  obtain ⟨spelled, kind, rest, shape, isSymbol, rfl, _⟩ := exists_of_symbol? matched
  obtain ⟨first, more, rfl⟩ := List.exists_cons_of_ne_nil (filled _ isSymbol)
  cases shape
  exact ⟨kind, more, isSymbol, rfl⟩

/-- No symbol is found where none starts with the first character, for such a character would be a
symbol itself. -/
theorem symbol?_eq_none_iff :
    symbol? (c :: later) = none ↔ ∀ entry ∈ TokenKind.symbols, entry.1.head? ≠ some c := by
  have firsts : ∀ entry ∈ TokenKind.symbols, TokenKind.ofSymbol? (entry.1.take 1) ≠ none := by
    decide
  constructor
  · rintro unknown ⟨text, kind⟩ isSymbol head
    obtain ⟨more, rfl⟩ := List.head?_eq_some_iff.mp head
    obtain ⟨kind', known⟩ := Option.ne_none_iff_exists'.mp (firsts _ isSymbol)
    exact symbol?_eq_none.mp unknown _ (ofSymbol?_eq_some_iff.mp known) ⟨later, rfl⟩
  · intro apart
    cases matched : symbol? (c :: later) with
    | none => rfl
    | some lexeme =>
      obtain ⟨kind, more, isSymbol, _⟩ := symbol?_isSymbol matched
      exact absurd rfl (apart _ isSymbol)

/-! ## All lexemes -/

/-- A lexeme that is at fault is so for what the text offends with, at the same place. -/
theorem offends_of_starting {place : Span}
    (found : (starting first (first :: later)).found = .fault fault place.index place.length) :
    Offends first later fault place := by
  unfold starting at found
  split at found
  next => cases found
  next notStart =>
    split at found
    next digit =>
      obtain ⟨literal, behind, split, malformed⟩ := malformed_of_number digit found
      rw [split, number_of_malformed malformed] at found
      obtain ⟨index, length⟩ := place
      cases found
      exact .number digit split malformed
    next notDigit =>
      split at found
      next isQuote =>
        obtain rfl := beq_iff_eq.mp isQuote
        exact offends_of_string found
      next notQuote =>
        cases matched : symbol? (first :: later) with
        | some lexeme =>
          obtain ⟨kind, more, _, isToken⟩ := symbol?_isSymbol matched
          rw [matched, Option.getD_some, isToken] at found
          cases found
        | none =>
          obtain ⟨index, length⟩ := place
          rw [matched] at found
          cases found
          refine .stranger ?_
          rintro (start | digit | rfl | ⟨entry, isSymbol, head⟩)
          · exact notStart start
          · exact notDigit digit
          · exact notQuote (beq_self_eq_true _)
          · exact symbol?_eq_none_iff.mp matched entry isSymbol head

/-- Where the text offends, the lexeme is at fault. -/
theorem starting_of_offends {place : Span} (offends : Offends first later fault place) :
    (starting first (first :: later)).found = .fault fault place.index place.length := by
  cases offends with
  | stranger strange =>
    simp only [Text.StartsLexeme, not_or, not_exists, not_and] at strange
    obtain ⟨notStart, notDigit, notQuote, notSymbol⟩ := strange
    rw [starting, if_neg notStart, if_neg notDigit, if_neg (mt beq_iff_eq.mp notQuote),
      symbol?_eq_none_iff.mpr notSymbol]
    rfl
  | escape isQuote split quotes unknown =>
    rw [isQuote, starting_quote, split]
    exact stringAfter_escape quotes unknown
  | endless isQuote split quotes =>
    rw [isQuote, starting_quote]
    exact stringAfter_endless quotes split
  | number digit split malformed =>
    rw [starting, Text.isIdentifierStart_of_digit digit, if_neg Bool.false_ne_true, if_pos digit,
      split, number_of_malformed malformed]

/-- A lexeme is at fault exactly where the text offends, and about what is at fault there. -/
theorem starting_offends_iff {place : Span} :
    (starting first (first :: later)).found = .fault fault place.index place.length ↔
      Offends first later fault place :=
  ⟨offends_of_starting, starting_of_offends⟩

/-- A string ends at the first quote that is not escaped, and only known escapes stand before it. -/
theorem stringAfter_eq_token_iff {taken : Nat} {kind : TokenKind} {value : Text} :
    stringAfter 1 [] later = ⟨taken, .token kind value⟩ ↔
      ∃ body rest, later = body ++ '"' :: rest ∧ Text.Quotes body value ∧ kind = .string ∧
        taken = body.length + 2 := by
  constructor
  · intro found
    obtain ⟨body, content, rest, split, quotes, rfl, rfl, rfl⟩ := stringAfter_found found
    exact ⟨body, rest, split, quotes, rfl, by omega⟩
  · rintro ⟨body, rest, rfl, quotes, rfl, rfl⟩
    rw [stringAfter_eq quotes, Nat.add_comm 1]
    rfl

end Lexeme

namespace Stream

variable {stream : Stream} {c : Char} {later : Text}

/-- A stream with text left stands inside its source. -/
theorem inside_of_rest (shape : stream.rest = c :: later) :
    stream.position ≤ stream.source.size := by
  by_contra beyond
  have nothing : stream.rest = [] := by
    rw [stream.rest_eq]
    apply List.drop_eq_nil_of_le
    rw [← stream.source.size_eq]
    omega
  rw [nothing] at shape
  cases shape

/-- A stream with text left behind the trivia stands inside its source. -/
theorem inside_of_skipTrivia (shape : stream.skipTrivia.rest = c :: later) :
    stream.position ≤ stream.source.size :=
  (Nat.le_add_right _ _).trans (inside_of_rest shape)

/-- A lexeme that is at fault means a diagnostic about its fault, and no other lexeme fails. -/
theorem meaning_eq_error_iff {lexeme : Lexeme} {failure : Failure}
    (inside : stream.position ≤ stream.source.size) (takes : lexeme.Takes stream.rest.length) :
    stream.meaning lexeme = .error failure ↔
      ∃ (fault : Fault) (place : Span), lexeme.found = .fault fault place.index place.length ∧
        failure = .diagnostic ⟨fault, place.forth stream.position⟩ := by
  have whole := stream.position_add_length inside
  have fits := takes.fits
  obtain ⟨taken, found⟩ := lexeme
  unfold meaning
  cases found with
  | token kind value =>
    have made : stream.source.span? stream.position taken = .ok ⟨stream.position, taken⟩ := by
      dsimp only at fits
      rw [Source.span?, if_neg (by omega)]
      rfl
    simp only [made]
    constructor
    · rintro ⟨⟩
    · rintro ⟨_, _, ⟨⟩, _⟩
  | fault fault start length =>
    have made : stream.source.span? (stream.position + start : Nat) length =
        .ok ⟨stream.position + start, length⟩ := by
      have within := (takes.fault fault start length rfl).2.2
      dsimp only at fits within
      rw [Source.span?, if_neg (by omega)]
      rfl
    simp only [made]
    constructor
    · rintro ⟨⟩
      exact ⟨fault, ⟨start, length⟩, rfl, by rw [Nat.add_comm]; rfl⟩
    · rintro ⟨_, ⟨_, _⟩, ⟨⟩, rfl⟩
      rw [Nat.add_comm]
      rfl

/-- Where text is left behind the trivia, the next token fails exactly if the text there offends, and
with a diagnostic about what offends. Behind a quote it otherwise is the string up to the first quote
that is not escaped. -/
theorem nextToken_classified (shape : stream.skipTrivia.rest = c :: later) :
    let start := stream.skipTrivia.position
    (∀ failure, stream.nextToken.1 = .error failure ↔
      ∃ fault place, Offends c later fault place ∧
        failure = .diagnostic ⟨fault, place.forth start⟩) ∧
    (c = '"' → ∀ token, stream.nextToken.1 = .ok token ↔
      ∃ body rest, later = body ++ '"' :: rest ∧ Text.Quotes body token.value ∧
        token.kind = .string ∧ token.span = ⟨start, body.length + 2⟩) := by
  intro start
  have inside := skipTrivia_inside (inside_of_skipTrivia shape)
  have takes := Lexeme.starting_takes c later
  have next : stream.nextToken.1 = stream.skipTrivia.meaning (Lexeme.starting c (c :: later)) :=
    congrArg Prod.fst (nextToken_eq_take shape)
  rw [next]
  constructor
  · intro failure
    rw [meaning_eq_error_iff inside (by rwa [shape])]
    simp only [Lexeme.starting_offends_iff]
    exact Iff.rfl
  · rintro rfl ⟨kind, value, ⟨index, length⟩⟩
    rw [meaning_eq_ok_iff inside fun _ _ _ => by rw [shape]; exact takes.fits,
      Lexeme.starting_quote, Lexeme.stringAfter_eq_token_iff]
    constructor
    · rintro ⟨⟨body, rest, split, quotes, isString, rfl⟩, rfl⟩
      exact ⟨body, rest, split, quotes, isString, rfl⟩
    · rintro ⟨body, rest, split, quotes, isString, span_eq⟩
      cases span_eq
      exact ⟨⟨body, rest, split, quotes, isString, rfl⟩, rfl⟩

/-- Behind a name and a blank a string with an unknown escape, and a string with a known one. -/
theorem nextToken_classified_string :
    (startingAt (Source.ofText [] "x \"a\\q\"".toList) 1).nextToken.1 =
        .error (.diagnostic ⟨.badEscape, ⟨4, 2⟩⟩) ∧
      (startingAt (Source.ofText [] "x \"\\n\"".toList) 1).nextToken.1 =
        .ok ⟨.string, ['\n'], ⟨2, 4⟩⟩ := by
  constructor
  · have shape : (startingAt (Source.ofText [] "x \"a\\q\"".toList) 1).skipTrivia.rest =
        '"' :: "a\\q\"".toList := by decide
    exact ((nextToken_classified shape).1 _).mpr ⟨.badEscape, ⟨2, 2⟩,
      .escape rfl rfl (.plain (by decide) (by decide) .nil) (by decide), rfl⟩
  · have shape : (startingAt (Source.ofText [] "x \"\\n\"".toList) 1).skipTrivia.rest =
        '"' :: "\\n\"".toList := by decide
    exact ((nextToken_classified shape).2 rfl _).mpr
      ⟨"\\n".toList, [], rfl, .escaped rfl .nil, rfl, rfl⟩

end Stream

end SinosLang
