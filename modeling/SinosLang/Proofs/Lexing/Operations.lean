import SinosLang.Proofs.Lexing.Lookahead

/-!
# Operations on a stream in any order

A stream can be asked for a character, a token, a lexeme of one sort, or to skip what stands before
the next token, and it can be asked for any of these at any place, also where no lexeme of that sort
begins. Each operation stays inside the source, and the spans that it answers with or objects to lie
between the place where it starts and the place that it reaches. So whatever is asked of a stream, one
after the other and going on behind failures, keeps it inside its source and never moves it back.
Asking for tokens alone moves it on each time, until the end is answered.

Main statement: `steps_sane`.
-/

set_option autoImplicit false

namespace SinosLang

namespace Lexeme

/-- A lexeme takes no more than so many characters, maybe none, and a fault in it is about some of
those that it takes. -/
structure Within (size : Nat) (lexeme : Lexeme) : Prop where
  fits : lexeme.taken ≤ size
  fault : ∀ fault start length, lexeme.found = .fault fault start length →
    start + length ≤ lexeme.taken

variable {size : Nat} {lexeme : Lexeme}

/-- A lexeme that takes some of so many characters is within them. -/
theorem Takes.within (takes : lexeme.Takes size) : lexeme.Within size :=
  ⟨takes.fits, fun fault start length isFault => (takes.fault fault start length isFault).2.2⟩

/-- A lexeme that is a token is within the characters that it takes. -/
theorem within_token {kind : TokenKind} {value : Text} {taken : Nat} (fits : taken ≤ size) :
    Within size ⟨taken, .token kind value⟩ :=
  ⟨fits, fun _ _ _ isFault => by cases isFault⟩

/-- A run of identifier characters may be empty. -/
theorem identifier_within (text : Text) : (identifier text).Within text.length :=
  within_token (List.takeWhile_prefix _).length_le

/-- Where no digit stands, a number takes what follows a point, or nothing. -/
theorem number_within (text : Text) : (number text).Within text.length := by
  by_cases digit : ∃ first rest, text = first :: rest ∧ Text.isDigit first = true
  · obtain ⟨first, rest, rfl, digit⟩ := digit
    exact (number_takes digit).within
  · have noDigits : text.takeWhile Text.isDigit = [] ∧ text.dropWhile Text.isDigit = text := by
      cases text with
      | nil => simp
      | cons first rest =>
        have notDigit : ¬Text.isDigit first = true := fun isDigit => digit ⟨first, rest, rfl, isDigit⟩
        simp [notDigit]
    by_cases point : text.head? = some '.'
    · obtain ⟨afterPoint, rfl⟩ := List.head?_eq_some_iff.mp point
      rw [number_of_point noDigits.2, noDigits.1]
      have takes := fractional_takes [] afterPoint
      rw [List.length_nil, Nat.zero_add, Nat.add_comm] at takes
      exact takes.within
    · rw [number_of_not_point (by rw [noDigits.2]; exact point), noDigits.1]
      refine ⟨Nat.zero_le _, ?_⟩
      rintro _ _ _ ⟨⟩
      exact le_rfl

/-- The first character is taken for the opening quote, whatever it is. -/
theorem string_within (first : Char) (rest : Text) :
    (string (first :: rest)).Within (first :: rest).length := by
  have takes := @stringAfter_takes 1 rest [] Nat.one_pos
  rw [Nat.add_comm] at takes
  exact takes.within

/-- The lexeme at a character is within the text that starts with it. -/
theorem starting_within (first : Char) (rest : Text) :
    (starting first (first :: rest)).Within (first :: rest).length :=
  (starting_takes first rest).within

end Lexeme

/-- What is answered or objected to lies between two places of a source; no other failure
happens. -/
structure Between (start stop : Nat) (outcome : Except Failure Token) : Prop where
  token : ∀ token, outcome = .ok token → start ≤ token.span.index ∧ token.span.stop ≤ stop
  failure : ∀ failure, outcome = .error failure →
    ∃ d, failure = .diagnostic d ∧ start ≤ d.span.index ∧ d.span.stop ≤ stop

namespace Between

variable {start start' stop : Nat} {outcome : Except Failure Token}

/-- What lies behind a place lies behind any earlier one. -/
theorem earlier (between : Between start stop outcome) (le : start' ≤ start) :
    Between start' stop outcome := by
  constructor
  · intro token isToken
    have bounds := between.token token isToken
    exact ⟨le.trans bounds.1, bounds.2⟩
  · intro failure isFailure
    obtain ⟨d, isDiagnostic, after, before⟩ := between.failure failure isFailure
    exact ⟨d, isDiagnostic, le.trans after, before⟩

end Between

namespace Stream

variable {stream : Stream}

/-- A lexeme that fits into what is left of the text means something between its first character and
the one behind it. -/
theorem meaning_between {lexeme : Lexeme} (inside : stream.position ≤ stream.source.size)
    (within : lexeme.Within stream.rest.length) :
    Between stream.position (stream.position + lexeme.taken) (stream.meaning lexeme) := by
  have whole := stream.position_add_length inside
  have fits := within.fits
  -- the spans that a lexeme asks for lie inside the source
  have made {start length : Nat} (among : start + length ≤ lexeme.taken) :
      stream.source.span? (stream.position + start : Nat) length =
        .ok ⟨stream.position + start, length⟩ := by
    rw [Source.span?, if_neg (by omega)]
    rfl
  unfold meaning
  split
  next kind value isToken =>
    have span_eq := @made 0 lexeme.taken (Nat.zero_add _).le
    rw [Nat.add_zero] at span_eq
    rw [span_eq]
    constructor
    · rintro token ⟨⟩
      exact ⟨le_rfl, le_rfl⟩
    · rintro failure ⟨⟩
  next fault start length isFault =>
    have among := within.fault fault start length isFault
    rw [made among]
    constructor
    · rintro token ⟨⟩
    · rintro failure ⟨⟩
      refine ⟨_, rfl, Nat.le_add_right _ _, ?_⟩
      simp only [Span.stop]
      omega

/-- What is left behind the trivia begins with a lexeme, or is nothing. -/
theorem nextToken_between (inside : stream.position ≤ stream.source.size) :
    stream.position ≤ stream.nextToken.2.position ∧
      stream.nextToken.2.position ≤ stream.source.size ∧
      Between stream.position stream.nextToken.2.position stream.nextToken.1 := by
  have inside' : stream.skipTrivia.position ≤ stream.skipTrivia.source.size :=
    skipTrivia_inside inside
  have whole : stream.skipTrivia.position + stream.skipTrivia.rest.length = stream.source.size :=
    stream.skipTrivia.position_add_length inside'
  have behind : stream.position ≤ stream.skipTrivia.position := Nat.le_add_right _ _
  cases shape : stream.skipTrivia.rest with
  | nil =>
    have next_eq : stream.nextToken = (stream.skipTrivia.endToken, stream.skipTrivia) := by
      unfold nextToken
      dsimp only
      rw [shape]
    have ends := meaning_between inside'
      (@Lexeme.within_token stream.skipTrivia.rest.length .eof [] 0 (Nat.zero_le _))
    rw [next_eq]
    exact ⟨behind, inside', ends.earlier behind⟩
  | cons first rest =>
    have within := Lexeme.starting_within first rest
    rw [← shape] at within
    have between := meaning_between inside' within
    rw [shape] at between within whole
    have fits := within.fits
    rw [nextToken_eq_take shape]
    refine ⟨behind.trans (Nat.le_add_right _ _), ?_, between.earlier behind⟩
    simp only [take, advance_position]
    omega

/-- The end is answered where nothing but trivia is left. -/
theorem nextToken_of_atEnd (inside : stream.position ≤ stream.source.size)
    (atEnd : stream.skipTrivia.atEnd = true) :
    ∃ token, stream.nextToken.1 = .ok token ∧ token.kind = .eof := by
  have nothing : stream.skipTrivia.rest = [] := List.isEmpty_iff.mp atEnd
  have next_eq : stream.nextToken.1 = stream.skipTrivia.endToken := by
    unfold nextToken
    dsimp only
    rw [nothing]
  have ends : stream.skipTrivia.endToken = .ok ⟨.eof, [], ⟨stream.skipTrivia.position, 0⟩⟩ := by
    refine (meaning_eq_ok_iff (skipTrivia_inside inside) ?_).mpr ⟨rfl, rfl⟩
    intro _ _ _
    exact Nat.zero_le _
  exact ⟨_, next_eq.trans ends, rfl⟩

/-! ## One operation -/

/-- What a stream can be asked for. The lexer hands a request for a character on to its stream, so
there is one operation for both. -/
inductive Operation where
  | next
  | nextToken
  | matchSymbol
  | scanIdentifier
  | scanNumber
  | scanString
  | skipTrivia
  | skipComment
deriving DecidableEq, Repr

/-- What an operation answers with; skipping and looking for a symbol in vain answer with
nothing. -/
inductive Answer where
  | character (c : Char)
  | token (token : Token)
  | nothing
deriving DecidableEq, Repr

/-- Carries out an operation. -/
def perform (stream : Stream) : Operation → Except Failure Answer × Stream
  | .next => (stream.next.1.map .character, stream.next.2)
  | .nextToken => (stream.nextToken.1.map .token, stream.nextToken.2)
  | .matchSymbol =>
    (stream.matchSymbol.1.map fun token? => (token?.map Answer.token).getD .nothing,
      stream.matchSymbol.2)
  | .scanIdentifier => (stream.scanIdentifier.1.map .token, stream.scanIdentifier.2)
  | .scanNumber => (stream.scanNumber.1.map .token, stream.scanNumber.2)
  | .scanString => (stream.scanString.1.map .token, stream.scanString.2)
  | .skipTrivia => (.ok .nothing, stream.skipTrivia)
  | .skipComment => (.ok .nothing, stream.skipComment)

/-- An operation that was carried out: where, what came of it, and where it left off. -/
structure Step where
  before : Stream
  operation : Operation
  outcome : Except Failure Answer
  after : Stream

/-- The step that an operation is from a stream on. -/
def step (stream : Stream) (operation : Operation) : Step :=
  ⟨stream, operation, (stream.perform operation).1, (stream.perform operation).2⟩

/-- Operations carried out one after the other, also behind failures. -/
def steps (stream : Stream) : List Operation → List Step
  | [] => []
  | operation :: operations =>
    stream.step operation :: steps (stream.step operation).after operations

/-- A step that stays inside its source and does not go back. What it answers with or objects to lies
between its two places; it fails in no other way than by reading at the end, where it stays. A request
for a token moves on, unless it is answered with the end. -/
structure Step.Sane (step : Step) : Prop where
  source_eq : step.after.source = step.before.source
  forward : step.before.position ≤ step.after.position
  inside : step.after.position ≤ step.before.source.size
  token : ∀ token, step.outcome = .ok (.token token) →
    step.before.position ≤ token.span.index ∧ token.span.stop ≤ step.after.position
  failure : ∀ failure, step.outcome = .error failure →
    (∃ d, failure = .diagnostic d ∧ step.before.position ≤ d.span.index ∧
      d.span.stop ≤ step.after.position) ∨
    (failure = .readPastEnd step.before.position ∧
      step.before.position = step.before.source.size ∧ step.after = step.before)
  progress : step.operation = .nextToken →
    (∃ token, step.outcome = .ok (.token token) ∧ token.kind = .eof) ∨
      step.before.position < step.after.position

/-! ## Each operation is sane -/

/-- The step from a stream to a later one of the same source, with an answer that is no token. -/
theorem Step.sane_of_skip {count : Nat} {answer : Answer} {operation : Operation}
    (inside : stream.position ≤ stream.source.size) (few : count ≤ stream.rest.length)
    (noToken : ∀ token, answer ≠ .token token) (noRequest : operation ≠ .nextToken) :
    Sane ⟨stream, operation, .ok answer, stream.advance count⟩ := by
  have whole := stream.position_add_length inside
  refine ⟨rfl, Nat.le_add_right _ _, ?_, ?_, ?_, fun isRequest => absurd isRequest noRequest⟩
  · simp only [advance_position]
    omega
  · intro token isToken
    exact absurd (Except.ok.inj isToken) (noToken token)
  · rintro failure ⟨⟩

/-- Reading at the end fails and changes nothing. -/
theorem Step.sane_of_readPastEnd {operation : Operation}
    (inside : stream.position ≤ stream.source.size) (nothing : stream.rest = [])
    (noRequest : operation ≠ .nextToken) :
    Sane ⟨stream, operation, .error (.readPastEnd stream.position), stream⟩ := by
  have whole := stream.position_add_length inside
  rw [nothing, List.length_nil, Nat.add_zero] at whole
  refine ⟨rfl, le_rfl, inside, ?_, ?_, fun isRequest => absurd isRequest noRequest⟩
  · rintro token ⟨⟩
  · rintro failure ⟨⟩
    exact .inr ⟨rfl, whole, rfl⟩

/-- The step from a stream to a later one, with a token or a diagnostic about what is between
them. -/
theorem Step.sane_of_between {after : Stream} {outcome : Except Failure Token}
    {operation : Operation} (source_eq : after.source = stream.source)
    (forward : stream.position ≤ after.position) (inside : after.position ≤ stream.source.size)
    (between : Between stream.position after.position outcome)
    (progress : operation = .nextToken →
      (∃ token, outcome = .ok token ∧ token.kind = .eof) ∨ stream.position < after.position) :
    Sane ⟨stream, operation, outcome.map .token, after⟩ := by
  refine ⟨source_eq, forward, inside, ?_, ?_, ?_⟩
  · intro token isToken
    cases outcome with
    | error _ => cases isToken
    | ok found =>
      cases isToken
      exact between.token token rfl
  · intro failure isFailure
    cases outcome with
    | ok _ => cases isFailure
    | error cause =>
      cases isFailure
      exact .inl (between.failure failure rfl)
  · intro isRequest
    rcases progress isRequest with ⟨token, rfl, isEnd⟩ | further
    · exact .inl ⟨token, rfl, isEnd⟩
    · exact .inr further

/-- Taking a lexeme that fits into what is left. -/
theorem Step.sane_of_take {lexeme : Lexeme} {operation : Operation}
    (inside : stream.position ≤ stream.source.size) (within : lexeme.Within stream.rest.length)
    (noRequest : operation ≠ .nextToken) :
    Sane ⟨stream, operation, (stream.take lexeme).1.map .token, (stream.take lexeme).2⟩ := by
  have whole := stream.position_add_length inside
  have fits := within.fits
  refine sane_of_between rfl (Nat.le_add_right _ _) ?_ (meaning_between inside within)
    fun isRequest => absurd isRequest noRequest
  simp only [take, advance_position]
  omega

/-- A request for a token moves on, unless it is answered with the end. -/
theorem nextToken_progress (inside : stream.position ≤ stream.source.size) :
    (∃ token, stream.nextToken.1 = .ok token ∧ token.kind = .eof) ∨
      stream.position < stream.nextToken.2.position := by
  by_cases atEnd : stream.skipTrivia.atEnd = true
  · exact .inl (nextToken_of_atEnd inside atEnd)
  · exact .inr (nextToken_goesOn inside atEnd).forward

/-- Every operation is sane, wherever in its source the stream stands. -/
theorem step_sane (inside : stream.position ≤ stream.source.size) (operation : Operation) :
    (stream.step operation).Sane := by
  cases operation with
  | next =>
    unfold step perform next
    cases shape : stream.rest with
    | nil => exact Step.sane_of_readPastEnd inside shape nofun
    | cons c later =>
      have some : 1 ≤ stream.rest.length := by
        rw [shape]
        exact Nat.succ_pos _
      exact Step.sane_of_skip inside some nofun nofun
  | nextToken =>
    obtain ⟨forward, inside', between⟩ := nextToken_between inside
    exact Step.sane_of_between (nextToken_source stream) forward inside' between fun _ =>
      nextToken_progress inside
  | matchSymbol =>
    unfold step perform matchSymbol
    cases matched : Lexeme.symbol? stream.rest with
    | none => exact @Step.sane_of_skip stream 0 _ _ inside (Nat.zero_le _) nofun nofun
    | some lexeme =>
      have within := (Lexeme.symbol?_takes matched).within
      have outcome_eq (outcome : Except Failure Token) :
          (outcome.map some).map (fun token? => (token?.map Answer.token).getD .nothing) =
            outcome.map .token := by
        cases outcome <;> rfl
      simp only [outcome_eq]
      exact Step.sane_of_take inside within nofun
  | scanIdentifier => exact Step.sane_of_take inside (Lexeme.identifier_within _) nofun
  | scanNumber => exact Step.sane_of_take inside (Lexeme.number_within _) nofun
  | scanString =>
    unfold step perform scanString
    cases shape : stream.rest with
    | nil => exact Step.sane_of_readPastEnd inside shape nofun
    | cons first later =>
      have within := Lexeme.string_within first later
      rw [← shape] at within
      simp only [← shape]
      exact Step.sane_of_take inside within nofun
  | skipTrivia =>
    have few := stream.length_skipTrivia
    exact Step.sane_of_skip inside (by omega) nofun nofun
  | skipComment =>
    exact Step.sane_of_skip inside (List.takeWhile_prefix _).length_le nofun nofun

/-! ## Runs of operations -/

/-- Whatever is asked of a stream, all steps are sane and none is before the first. -/
theorem sane_of_mem_steps {operations : List Operation} {step : Step}
    (inside : stream.position ≤ stream.source.size) (isIn : step ∈ stream.steps operations) :
    step.Sane ∧ step.before.source = stream.source ∧ stream.position ≤ step.before.position := by
  induction operations generalizing stream with
  | nil => cases isIn
  | cons operation operations ih =>
    have sane := step_sane inside operation
    rw [steps] at isIn
    rcases List.mem_cons.mp isIn with rfl | isLater
    · exact ⟨sane, rfl, le_rfl⟩
    · have source_eq : (stream.step operation).after.source = stream.source := sane.source_eq
      have inside' : (stream.step operation).after.position ≤
          (stream.step operation).after.source.size := by
        rw [source_eq]
        exact sane.inside
      obtain ⟨sane', source_eq', behind⟩ := ih inside' isLater
      exact ⟨sane', source_eq'.trans source_eq, sane.forward.trans behind⟩

/-- Asking for more tokens than there are characters left answers with the end. -/
theorem exists_end_of_steps {count : Nat} (inside : stream.position ≤ stream.source.size)
    (many : stream.source.size < stream.position + count) :
    ∃ step ∈ stream.steps (List.replicate count .nextToken),
      ∃ token, step.outcome = .ok (.token token) ∧ token.kind = .eof := by
  induction count generalizing stream with
  | zero => omega
  | succ count ih =>
    have sane := step_sane inside .nextToken
    have source_eq : (stream.step .nextToken).after.source = stream.source := sane.source_eq
    have inside' : (stream.step .nextToken).after.position ≤ stream.source.size := sane.inside
    rw [List.replicate_succ, steps]
    rcases sane.progress rfl with ended | further
    · exact ⟨_, List.mem_cons_self, ended⟩
    · -- each request that is not answered with the end leaves fewer characters
      have further' : stream.position < (stream.step .nextToken).after.position := further
      rw [← source_eq] at inside' many
      obtain ⟨step, isIn, ended⟩ := ih inside' (by omega)
      exact ⟨step, List.mem_cons_of_mem _ isIn, ended⟩

/-- Whatever is asked of a stream anywhere in a source, in any order and going on behind failures, it
stays inside that source and never goes back, and everything that it answers with or objects to lies
between the places before and after the operation. As many requests for a token as there are
characters, and one more, reach the end. -/
theorem steps_sane {source : Source} {position : Nat} (inside : position ≤ source.size) :
    (∀ operations, ∀ step ∈ (startingAt source position).steps operations,
      step.Sane ∧ step.before.source = source ∧ position ≤ step.before.position) ∧
    ∃ step ∈ (startingAt source position).steps (List.replicate (source.size + 1) .nextToken),
      ∃ token, step.outcome = .ok (.token token) ∧ token.kind = .eof := by
  constructor
  · intro operations step isIn
    exact sane_of_mem_steps inside isIn
  · have many : source.size < position + (source.size + 1) := by omega
    exact exists_end_of_steps inside many

/-- A number is asked for where a point stands, and then whatever comes. -/
theorem steps_sane_atPoint :
    let source := Source.ofText [] "a..b".toList
    1 ≤ source.size ∧
      (∀ operations, ∀ step ∈ (startingAt source 1).steps operations,
        step.Sane ∧ step.before.source = source ∧ 1 ≤ step.before.position) ∧
      ∃ step ∈ (startingAt source 1).steps (List.replicate (source.size + 1) .nextToken),
        ∃ token, step.outcome = .ok (.token token) ∧ token.kind = .eof := by
  have inside : 1 ≤ (Source.ofText [] "a..b".toList).size := by decide
  exact ⟨inside, steps_sane inside⟩

end Stream

end SinosLang
